import NancyMan.Explorer.PageQuery
import NancyMan.Explorer.CursorRoundTrip

/-!
# Following the cursors of a table

A reader asks for a first page without a cursor and follows `nextCursor` until it is null.
What stands at each step is `Position`: the rows not shown yet are the end of the requested
rows, and the cursor at hand opens to the key of the row before them. One answered request
shows the next page of those rows (`read_page`), so the answered pages are the pages of
exactly the requested rows in their order, whatever ends the reading (`follow_pages`).
-/
namespace NancyMan.Explorer

open DatabaseExplorerColumn CursorKey
open List (length_cons map_cons mem_map)
open Function (comp_def)

variable {ν V : Type} [JsonRuntime ν]

/-- A request that the explorer accepts, of a relation whose pagination key is unique and
non-null in the table, where the values of the cursor's columns come back from a cursor as
values that the server reads as the ones stored. -/
structure Explorable [LinearOrder V] (worker : Worker ν V) (database : Database V)
    (snapshot : DatabaseExplorerSchemaSnapshot) (trusted : List (TrustedEquality ν))
    (request : DatabaseRowsRequest) (relation : DatabaseExplorerRelation)
    (paginationKey : List String) (checked : CheckedQuery ν) : Prop where
  requested : requestedRelation worker snapshot request = .ok relation
  accepted : checkRowsQuery snapshot request trusted = .ok checked
  bound : (worker.server.run database (assembleQuery request checked none) checked.values).isSome
  live : database.checksum = snapshot.checksum
  stable : stableKey relation = some paginationKey
  readable : ∀ column ∈ paginationKey, ∃ entry ∈ selectableColumns relation, entry.name = column
  present : ∀ row ∈ (database.table request.schema request.relation).rows,
    ∀ column ∈ paginationKey, row column ≠ none
  unique : (database.table request.schema request.relation).rows.Pairwise
    fun left right => ∃ column ∈ paginationKey, left column ≠ right column
  roundTrips : ∀ row ∈ (database.table request.schema request.relation).rows,
    ∀ column ∈ getCursorKeyColumns request.sort paginationKey, ∀ value, row column = some value →
      isNullValue (worker.server.fetch value).throughJson = false ∧
        worker.server.bind ((database.table request.schema request.relation).dataType column)
          (worker.server.fetch value).throughJson = some (some value)

/-- Calls whose cursors are sealed under fresh nonces and used before they expire. -/
def Timely (calls : Nat → Call ν) : Prop :=
  ∀ index, (calls index).nonce.length = 12 ∧
    (calls (index + 1)).decodedAt < (calls index).issuedAt + cursorExpiryMs

/-- How following cursors ends. -/
inductive Outcome where
  | complete
  | failed (failure : ReadFailure)
  | unfinished

/-- Follow `nextCursor` for a number of requests. -/
def follow (read : Nat → Option String → Except ReadFailure (DatabaseRowsResponse ν)) :
    Nat → Nat → Option String → List (DatabaseRowsResponse ν) × Outcome
  | 0, _, _ => ([], .unfinished)
  | fuel + 1, index, cursor =>
    match read index cursor with
    | .error failure => ([], .failed failure)
    | .ok response =>
      match response.nextCursor with
      | none => ([response], .complete)
      | some next =>
        let rest := follow read fuel (index + 1) (some next)
        (response :: rest.1, rest.2)

/-- The requests for the pages of a table, each with its cursor. -/
def readPage [LinearOrder V] (worker : Worker ν V) (database : Database V)
    (snapshot : DatabaseExplorerSchemaSnapshot) (trusted : List (TrustedEquality ν))
    (request : DatabaseRowsRequest) (calls : Nat → Call ν) (index : Nat) (cursor : Option String) :
    Except ReadFailure (DatabaseRowsResponse ν) :=
  readDatabaseRows worker database (calls index) snapshot trusted { request with cursor := cursor }

/-- The cells that a stored row is shown as. -/
def shownCells (worker : Worker ν V) (relation : DatabaseExplorerRelation) (piiMode : PiiMode)
    (row : Row V) : Option (List (String × DatabaseCell ν)) :=
  encodeCells worker relation piiMode
    (worker.server.project ((selectableColumns relation).map DatabaseExplorerColumn.name) row)

/-- A response shows some rows: exactly these, in this order. -/
def Shows (worker : Worker ν V) (relation : DatabaseExplorerRelation) (piiMode : PiiMode)
    (rows : List (Row V)) (response : DatabaseRowsResponse ν) : Prop :=
  response.rows.map (fun row => some row.cells) = rows.map (shownCells worker relation piiMode)

/-- The ways in which a page is refused: its text is longer than a response may be, the key of
its last row does not fit a cursor, or one of its dates is invalid. -/
def Refusal (failure : ReadFailure) : Prop :=
  failure = .explorer (makeExplorerError .resultTooLarge none) ∨ failure = .explorer cursorError ∨
    failure = .invalidDate

/-! ## Answering one request -/

variable {relation : DatabaseExplorerRelation} {snapshot : DatabaseExplorerSchemaSnapshot} {worker :
  Worker ν V} {request : DatabaseRowsRequest} {call : Call ν}

/-- Encoded rows have the cells of their rows. -/
theorem encodePageRows_cells {index : Nat} {rows : List (ResultRow ν)}
    {encoded : List (EncodedRow ν)}
    (succeeds : encodePageRows worker call snapshot relation request index rows = some encoded) :
    encoded.map (fun row => some row.cells) =
      rows.map (encodeCells worker relation request.piiMode) := by
  induction rows generalizing index encoded with
  | nil =>
    cases succeeds
    rfl
  | cons row rows ih =>
    rw [encodePageRows] at succeeds
    split at succeeds
    · cases succeeds
    · next cells shown =>
      split at succeeds
      · cases succeeds
      · next others rest =>
        cases succeeds
        rw [map_cons, map_cons, ih rest, shown]

variable {decoded : Option (CursorData ν)}

/-- What a response to some query rows is. -/
theorem respond_ok {queryRows : List (ResultRow ν)} {response : DatabaseRowsResponse ν}
    (succeeds : respond worker call snapshot relation request decoded queryRows = .ok response) :
    nextCursorOf worker call snapshot relation request decoded queryRows = .ok response.nextCursor ∧
      response.rows.map (fun row => some row.cells) =
        (queryRows.take request.pageSize).map
          (encodeCells worker relation request.piiMode) ∧
      ∀ row ∈ response.rows,
        Utf8.byteLength (Json.renderChars row.toJson) ≤ maxResponseBytes := by
  unfold respond at succeeds
  split at succeeds
  · cases succeeds
  · next nextCursor cursors =>
    split at succeeds
    · cases succeeds
    · next encodedRows encoded =>
      dsimp only at succeeds
      split at succeeds
      · cases succeeds
      · next long =>
        cases succeeds
        have whole : (encodeRowPage encodedRows maxResponseBytes).truncated = false := by
          simpa using long
        rw [encodeRowPage_complete whole]
        exact ⟨cursors, encodePageRows_cells encoded, encodeRows_fits whole⟩

/-- A next cursor is refused in one way. -/
theorem nextCursorOf_error {queryRows : List (ResultRow ν)} {error : ExplorerError}
    (refused : nextCursorOf worker call snapshot relation request decoded queryRows = .error error) :
    error = cursorError := by
  have mapped {cursor : CursorData ν}
      (failed : (encodeCursor worker.crypto call.nonce cursor worker.cursorKey).map some =
        .error error) : error = cursorError := by
    cases outcome : encodeCursor worker.crypto call.nonce cursor worker.cursorKey with
    | ok token =>
      rw [outcome] at failed
      cases failed
    | error cause =>
      rw [outcome] at failed
      cases failed
      exact encodeCursor_error outcome
  unfold nextCursorOf at refused
  split at refused
  · split at refused
    · cases refused
    · split at refused
      · exact mapped refused
      · dsimp only at refused
        split at refused
        · exact mapped refused
        · cases refused
  · cases refused

/-- What refuses a response to some query rows. -/
theorem respond_error {queryRows : List (ResultRow ν)} {failure : ReadFailure}
    (fails : respond worker call snapshot relation request decoded queryRows = .error failure) :
    Refusal failure := by
  unfold respond at fails
  split at fails
  · next error refused =>
    cases fails
    rw [nextCursorOf_error refused]
    exact .inr (.inl rfl)
  · split at fails
    · cases fails
      exact .inr (.inr rfl)
    · dsimp only at fails
      split at fails
      · cases fails
        exact .inl rfl
      · cases fails

/-- The rows of a page are shown, and the next cursor is that of its last row exactly when
there is another page. -/
theorem respond_fetched (request : DatabaseRowsRequest) {response : DatabaseRowsResponse ν}
    {paginationKey : List String} {checked : CheckedQuery ν} {rows : List (Row V)}
    (stable : stableKey relation = some paginationKey) (known : checked.relation = relation)
    (succeeds : respond worker call snapshot relation request decoded
      (fetchRows worker.server request checked rows) = .ok response) :
    Shows worker relation request.piiMode (rows.take request.pageSize) response ∧
      (if request.pageSize < rows.length then
        ∀ last, (rows.take request.pageSize).getLast? = some last →
          ∃ token, response.nextCursor = some token ∧
            encodeCursor worker.crypto call.nonce
              (keysetCursor worker.target snapshot request call.issuedAt paginationKey
                (worker.server.project
                  ((selectableColumns relation).map name) last))
              worker.cursorKey = .ok token
      else response.nextCursor = none) := by
  obtain ⟨cursors, shown, -⟩ := respond_ok succeeds
  subst known
  have page : (fetchRows worker.server request checked rows).take request.pageSize =
      (rows.take request.pageSize).map (worker.server.project
        ((selectableColumns checked.relation).map name)) := by
    rw [fetchRows, ← List.map_take, List.take_take, Nat.min_eq_left (Nat.le_succ _)]
  have more : request.pageSize < (fetchRows worker.server request checked rows).length ↔
      request.pageSize < rows.length := by
    rw [fetchRows, List.length_map, List.length_take]
    omega
  constructor
  · rw [Shows, shown, page, List.map_map]
    rfl
  · unfold nextCursorOf at cursors
    by_cases long : request.pageSize < rows.length
    · rw [if_pos long]
      intro last isLast
      rw [if_pos (more.mpr long), page, List.getLast?_map, isLast] at cursors
      simp only [Option.map_some, stable] at cursors
      cases outcome : encodeCursor worker.crypto call.nonce
          (keysetCursor worker.target snapshot request call.issuedAt paginationKey
            (worker.server.project
              ((selectableColumns checked.relation).map name) last))
          worker.cursorKey with
      | ok token =>
        rw [outcome] at cursors
        exact ⟨token, (Except.ok.inj cursors).symm, rfl⟩
      | error error =>
        rw [outcome] at cursors
        cases cursors
    · rw [if_neg long]
      rw [if_neg (fun fetched => long (more.mp fetched))] at cursors
      exact (Except.ok.inj cursors).symm

/-! ## Reading a page -/

/-- The cursor after a row, as it comes back. -/
def returnedCursor (worker : Worker ν V) (snapshot : DatabaseExplorerSchemaSnapshot)
    (request : DatabaseRowsRequest) (relation : DatabaseExplorerRelation)
    (paginationKey : List String) (issuedAt : Int) (last : Row V) : CursorData ν :=
  (keysetCursor worker.target snapshot request issuedAt paginationKey
    (selectedRow worker relation last)).throughJson

/-- A cursor that opens to a row's key is read. -/
theorem readCursor_returned {paginationKey : List String} {token : String} {issuedAt : Int}
    {last : Row V} (stable : stableKey relation = some paginationKey) (nonempty : token ≠ "")
    (decodes : decodeCursor worker.crypto token worker.cursorKey
      (requestContext worker.target snapshot request) call.decodedAt =
        .ok (returnedCursor worker snapshot request relation paginationKey issuedAt last)) :
    readCursor worker call snapshot relation { request with cursor := some token } =
      .ok (some (returnedCursor worker snapshot request relation paginationKey issuedAt last)) := by
  have columns : ((cursorKeys request.sort paginationKey (selectedRow worker relation last)).map
      throughJson).map column =
        getCursorKeyColumns request.sort paginationKey := by
    simp [cursorKeys, comp_def, throughJson]
  have decodes' : decodeCursor worker.crypto token worker.cursorKey
      (requestContext worker.target snapshot { request with cursor := some token })
      call.decodedAt =
        .ok (returnedCursor worker snapshot request relation paginationKey issuedAt last) := decodes
  unfold readCursor
  split
  · next missing => cases missing
  · next empty => exact absurd (Option.some.inj empty) nonempty
  · next other _ same =>
    cases same
    rw [decodes']
    have sorted : (returnedCursor worker snapshot request relation paginationKey issuedAt
        last).sort = request.sort := by rfl
    dsimp only
    rw [if_neg (by simp [sorted])]
    dsimp only [returnedCursor, keysetCursor, CursorData.throughJson]
    rw [stable]
    dsimp only
    rw [if_pos columns]

/-- What a reader holds when some requested rows are left: no cursor before the first page, and
later a cursor that opens to the key of the row before them. -/
def Position (worker : Worker ν V) (snapshot : DatabaseExplorerSchemaSnapshot)
    (request : DatabaseRowsRequest) (relation : DatabaseExplorerRelation)
    (paginationKey : List String) (rows : List (Row V)) (call : Call ν) (cursor : Option String)
    (rest : List (Row V)) : Prop :=
  match cursor with
  | none => rest = rows
  | some token => token ≠ "" ∧ ∃ front last issuedAt, rows = front ++ last :: rest ∧
      decodeCursor worker.crypto token worker.cursorKey
        (requestContext worker.target snapshot request) call.decodedAt =
          .ok (returnedCursor worker snapshot request relation paginationKey issuedAt last)

/-- The cursor of an answered page opens at the next call to the page's last row. -/
theorem next_position {paginationKey : List String} {calls : Nat → Call ν} (timely : Timely calls)
    {index : Nat} {token : String} {last : Row V} {rows front back : List (Row V)}
    (found : rows = front ++ last :: back)
    (encoded : encodeCursor worker.crypto (calls index).nonce
      (keysetCursor worker.target snapshot request (calls index).issuedAt paginationKey
        (selectedRow worker relation last)) worker.cursorKey = .ok token) :
    Position worker snapshot request relation paginationKey rows (calls (index + 1)) (some token)
      back := by
  obtain ⟨fresh, early⟩ := timely index
  obtain ⟨-, sealed⟩ := encodeCursor_ok encoded
  refine ⟨sealToken_nonempty sealed, front, last, (calls index).issuedAt, found, ?_⟩
  exact decodeCursor_encodeCursor fresh encoded early trivial

/-- The cells of answered pages are the cells of their rows. -/
theorem shown_flatten {piiMode : PiiMode} {pages : List (List (Row V))}
    {responses : List (DatabaseRowsResponse ν)}
    (shown : List.Forall₂ (Shows worker relation piiMode) pages responses) :
    (responses.flatMap DatabaseRowsResponse.rows).map (fun row => some row.cells) =
      pages.flatten.map (shownCells worker relation piiMode) := by
  induction shown with
  | nil => rfl
  | cons here _ ih =>
    rw [List.flatMap_cons, List.map_append, List.flatten_cons, List.map_append, ih, here]

section Reading

variable [LinearOrder V] {worker : Worker ν V} {database : Database V}
  {snapshot : DatabaseExplorerSchemaSnapshot} {trusted : List (TrustedEquality ν)}
  {request : DatabaseRowsRequest} {relation : DatabaseExplorerRelation}
  {paginationKey : List String} {checked : CheckedQuery ν}
  (explorable : Explorable worker database snapshot trusted request relation paginationKey checked)

include explorable

theorem Explorable.relation_eq : checked.relation = relation := by
  obtain ⟨found, -⟩ := checkRowsQuery_ok explorable.accepted
  exact Except.ok.inj (found.symm.trans (requestedRelation_found explorable.requested))

/-- The columns of a cursor are selected. -/
theorem Explorable.selected {column : String}
    (member : column ∈ getCursorKeyColumns request.sort paginationKey) :
    ((selectableColumns relation).map name).contains column := by
  have found : ∃ entry ∈ selectableColumns relation, entry.name = column := by
    rcases mem_getCursorKeyColumns member with sorted | keyed
    · obtain ⟨sort, same, rfl⟩ := Option.map_eq_some_iff.mp sorted
      obtain ⟨-, sortable, -⟩ := checkRowsQuery_ok explorable.accepted
      rw [explorable.relation_eq] at sortable
      exact sortable sort same
    · exact explorable.readable column keyed
  obtain ⟨entry, inside, rfl⟩ := found
  rw [List.contains_iff_mem]
  exact List.mem_map_of_mem inside

/-- A key that comes back from a cursor denotes the row that the cursor was made of, and is
`null` only for NULL. -/
theorem Explorable.denotes {last : Row V} {column : String}
    (stored : last ∈ (database.table request.schema request.relation).rows)
    (known : column ∈ getCursorKeyColumns request.sort paginationKey) :
    Denotes worker.server (database.table request.schema request.relation).dataType last
        (throughJson ⟨column, selectedRow worker relation last column⟩) ∧
      (last column ≠ none →
        isNullValue (selectedRow worker relation last column).throughJson = false) := by
  have shown := selectedRow_eq worker last (explorable.selected known)
  cases value : last column with
  | none =>
    rw [value] at shown
    refine ⟨?_, fun present => absurd rfl present⟩
    rw [shown]
    exact Denotes.of_null rfl value
  | some found =>
    rw [value] at shown
    obtain ⟨present, bound⟩ := explorable.roundTrips last stored column known found value
    refine ⟨?_, fun _ => by rw [shown]; exact present⟩
    rw [shown]
    exact Denotes.of_value present value bound

/-- The keys that come back from a cursor denote the row that the cursor was made of. -/
theorem Explorable.keys_denote {last : Row V}
    (stored : last ∈ (database.table request.schema request.relation).rows) :
    ∀ key ∈ (cursorKeys request.sort paginationKey (selectedRow worker relation last)).map
        throughJson,
      Denotes worker.server (database.table request.schema request.relation).dataType last key := by
  intro key member
  obtain ⟨original, inside, rfl⟩ := mem_map.mp member
  obtain ⟨column, known, rfl⟩ := mem_map.mp inside
  exact (explorable.denotes stored known).1

/-- Only the first key of a cursor can be NULL. -/
theorem Explorable.tail_present {last : Row V}
    (stored : last ∈ (database.table request.schema request.relation).rows) :
    ∀ key ∈ ((cursorKeys request.sort paginationKey (selectedRow worker relation last)).map
        throughJson).tail, isNullValue key.value = false := by
  intro key member
  rw [cursorKeys, List.map_map, ← List.map_tail] at member
  obtain ⟨column, inside, rfl⟩ := mem_map.mp member
  exact (explorable.denotes stored (List.mem_of_mem_tail inside)).2
    (explorable.present last stored column (mem_tail_getCursorKeyColumns inside))

/-- The first page's query is answered with the first requested rows. -/
theorem queryPage_first (call : Call ν) :
    queryPage worker database call snapshot trusted request relation none =
      respond worker call snapshot relation request none
        (fetchRows worker.server request checked
          (requestedRows worker.server database request checked)) := by
  have live : ¬ database.checksum ≠ snapshot.checksum := not_not_intro explorable.live
  simp only [queryPage, cursorConditionOf, cursorOffset, buildRowsQuery, explorable.accepted,
    if_neg live, finalQuery, Option.map_none, Option.getD_none, List.append_nil,
    run_first explorable.bound]

/-- The query after a row is answered with the requested rows that follow it. -/
theorem queryPage_after (call : Call ν) (issuedAt : Int) {front back : List (Row V)} {last : Row V}
    (found : requestedRows worker.server database request checked = front ++ last :: back) :
    let decoded := some
      (returnedCursor worker snapshot request relation paginationKey issuedAt last)
    queryPage worker database call snapshot trusted request relation decoded =
      respond worker call snapshot relation request decoded
        (fetchRows worker.server request checked back) := by
  intro decoded
  let keys := (cursorKeys request.sort paginationKey (selectedRow worker relation last)).map
    throughJson
  have live : ¬ database.checksum ≠ snapshot.checksum := not_not_intro explorable.live
  have known := explorable.relation_eq
  have key := paginationKey_of_stable explorable.stable
  obtain ⟨-, -, numbered⟩ := checkRowsQuery_ok explorable.accepted
  have stored : last ∈ (database.table request.schema request.relation).rows := by
    have requested : last ∈ requestedRows worker.server database request checked := by
      rw [found]
      exact List.mem_append_right _ (.head _)
    exact mem_requestedRows requested
  have columns : keys.map CursorKey.column = getCursorKeyColumns request.sort paginationKey := by
    simp [keys, cursorKeys, comp_def, throughJson]
  have order (row : Row V) : Sql.rowBefore
      (keys.map fun key => (key.column, isAscending request.sort)) last row =
      Sql.rowBefore (queryOrder request.sort checked.relation.paginationKey) last row := by
    have items : keys.map (fun key => (key.column, isAscending request.sort)) =
        (getCursorKeyColumns request.sort paginationKey).map
          fun column => (column, isAscending request.sort) := by
      rw [← columns]
      simp only [List.map_map, comp_def]
    rw [known, key, items, rowBefore_cursorColumns]
  have distinct : Sql.Distinct (queryOrder request.sort checked.relation.paginationKey)
      (database.table request.schema request.relation).rows := by
    rw [known, key]
    exact distinct_queryOrder request.sort explorable.unique
  have after := run_after numbered explorable.bound (explorable.keys_denote stored)
    (explorable.tail_present stored) distinct order found
  have condition : cursorConditionOf request decoded = some (buildKeysetCondition keys
      ((request.sort.map SortDefinition.direction).getD .asc)) := by rfl
  have noOffset : cursorOffset decoded = none := by rfl
  unfold queryPage
  rw [condition, noOffset]
  simp only [buildRowsQuery, explorable.accepted, if_neg live, Option.map_some, Option.getD_some]
  rw [after]

/-- A request at a position is answered with the next rows. -/
theorem read_page {calls : Nat → Call ν} {index : Nat} {cursor : Option String}
    {rest : List (Row V)}
    (position : Position worker snapshot request relation paginationKey
      (requestedRows worker.server database request checked) (calls index) cursor rest) :
    ∃ decoded, readPage worker database snapshot trusted request calls index cursor =
      respond worker (calls index) snapshot relation { request with cursor := cursor } decoded
        (fetchRows worker.server request checked rest) := by
  have same : Explorable worker database snapshot trusted { request with cursor := cursor }
      relation paginationKey checked :=
    ⟨explorable.requested, explorable.accepted, explorable.bound, explorable.live,
      explorable.stable, explorable.readable, explorable.present, explorable.unique,
      explorable.roundTrips⟩
  unfold readPage readDatabaseRows
  rw [same.requested]
  dsimp only
  cases cursor with
  | none =>
    refine ⟨none, ?_⟩
    have whole : rest = requestedRows worker.server database request checked := position
    rw [whole]
    exact queryPage_first same (calls index)
  | some token =>
    obtain ⟨nonempty, front, last, issuedAt, found, decodes⟩ := position
    rw [readCursor_returned explorable.stable nonempty decodes]
    exact ⟨_, queryPage_after same (calls index) issuedAt found⟩

/-- What following cursors shows of some rows: it ends; the answered pages are the first pages
of the rows, each with exactly its own; when it is complete they are all of them, so that
together they show every row once, in order; and when a request fails, the page was refused. -/
structure PagesExact (worker : Worker ν V) (relation : DatabaseExplorerRelation)
    (piiMode : PiiMode) (size : Nat) (rows : List (Row V))
    (reading : List (DatabaseRowsResponse ν) × Outcome) : Prop where
  finished : reading.2 ≠ .unfinished
  shown : List.Forall₂ (Shows worker relation piiMode)
    ((Keyset.pages size rows).take reading.1.length) reading.1
  whole : reading.2 = .complete → reading.1.length = (Keyset.pages size rows).length
  refused : ∀ failure, reading.2 = .failed failure →
    reading.1.length < (Keyset.pages size rows).length ∧ Refusal failure

/-- The page size of an accepted request is positive. -/
theorem Explorable.pageSize_pos : 0 < request.pageSize := by
  have requested := explorable.requested
  unfold requestedRelation at requested
  split at requested
  · cases requested
  · next allowed =>
    by_contra zero
    have none : request.pageSize = 0 := by omega
    rw [none] at allowed
    exact allowed (by decide)

/-- Following cursors from a position shows the rows that are left. -/
theorem follow_from {calls : Nat → Call ν} (timely : Timely calls) {fuel index : Nat}
    {cursor : Option String} {front rest : List (Row V)}
    (split : requestedRows worker.server database request checked = front ++ rest)
    (position : Position worker snapshot request relation paginationKey
      (requestedRows worker.server database request checked) (calls index) cursor rest)
    (enough : rest.length < fuel) :
    PagesExact worker relation request.piiMode request.pageSize rest
      (follow (readPage worker database snapshot trusted request calls) fuel index cursor) := by
  have positive := explorable.pageSize_pos
  induction fuel generalizing index cursor front rest with
  | zero => exact absurd enough (Nat.not_lt_zero _)
  | succ fuel ih =>
    obtain ⟨decoded, answered⟩ := read_page explorable position
    have some_page : 0 < (Keyset.pages request.pageSize rest).length := by
      rw [Keyset.pages]
      split <;> simp
    cases outcome : respond worker (calls index) snapshot relation { request with cursor := cursor }
        decoded (fetchRows worker.server request checked rest) with
    | error failure =>
      have refusing : follow (readPage worker database snapshot trusted request calls) (fuel + 1)
          index cursor = ([], .failed failure) := by
        rw [follow, answered, outcome]
      rw [refusing]
      refine ⟨by simp, by simp, by simp, ?_⟩
      intro other same
      cases same
      exact ⟨some_page, respond_error outcome⟩
    | ok response =>
      have answering : follow (readPage worker database snapshot trusted request calls) (fuel + 1)
          index cursor =
          match response.nextCursor with
          | none => ([response], .complete)
          | some next =>
            let others := follow (readPage worker database snapshot trusted request calls) fuel
              (index + 1) (some next)
            (response :: others.1, others.2) := by
        rw [follow, answered, outcome]
      obtain ⟨shown, next⟩ := respond_fetched { request with cursor := cursor }
        explorable.stable explorable.relation_eq outcome
      rw [answering]
      by_cases long : request.pageSize < rest.length
      · rw [if_pos long] at next
        obtain ⟨before, last, -, isLast, around⟩ := Keyset.take_split positive long
        obtain ⟨token, cursors, encoded⟩ := next last isLast
        have whole : requestedRows worker.server database request checked =
            (front ++ before) ++ last :: rest.drop request.pageSize := by
          rw [split, List.append_assoc, ← around]
        have later := ih (show requestedRows worker.server database request checked =
            (front ++ before ++ [last]) ++ rest.drop request.pageSize by rw [whole]; simp)
          (next_position timely whole encoded) (by rw [List.length_drop]; omega)
        have more := Keyset.pages_more positive long
        rw [cursors]
        refine ⟨later.finished, ?_, ?_, ?_⟩
        · rw [more]
          exact List.Forall₂.cons shown later.shown
        · intro complete
          rw [more, length_cons, length_cons, later.whole complete]
        · intro failure failed
          obtain ⟨fewer, refusal⟩ := later.refused failure failed
          rw [more, length_cons, length_cons]
          exact ⟨Nat.succ_lt_succ fewer, refusal⟩
      · rw [if_neg long] at next
        have short : rest.length ≤ request.pageSize := Nat.le_of_not_lt long
        have one := Keyset.pages_last short
        rw [List.take_of_length_le short] at shown
        rw [next]
        refine ⟨by simp, ?_, by simp [one], by simp⟩
        rw [one]
        exact List.Forall₂.cons shown List.Forall₂.nil

omit explorable

/-- Keyset pagination is exact. Following cursors ends; the answered pages are the consecutive
pages of exactly the filtered rows in the requested order, until a page is refused; and when
none is, the pages together show each of those rows once, in order. -/
theorem follow_pages (explorable : Explorable worker database snapshot trusted request relation
    paginationKey checked) {calls : Nat → Call ν} (timely : Timely calls) {fuel : Nat}
    (enough : (requestedRows worker.server database request checked).length < fuel) :
    PagesExact worker relation request.piiMode request.pageSize
        (requestedRows worker.server database request checked)
        (follow (readPage worker database snapshot trusted request calls) fuel 0 none) ∧
      ((follow (readPage worker database snapshot trusted request calls) fuel 0 none).2 =
          .complete →
        ((follow (readPage worker database snapshot trusted request calls) fuel 0 none).1.flatMap
          DatabaseRowsResponse.rows).map (fun row => some row.cells) =
        (requestedRows worker.server database request checked).map
          (shownCells worker relation request.piiMode)) := by
  have start : Position worker snapshot request relation paginationKey
      (requestedRows worker.server database request checked) (calls 0) none
      (requestedRows worker.server database request checked) := rfl
  have exact := follow_from explorable timely (List.nil_append _).symm start enough
  refine ⟨exact, fun complete => ?_⟩
  have shown := exact.shown
  rw [exact.whole complete, List.take_length] at shown
  rw [shown_flatten shown, Keyset.pages_flatten]

end Reading

/-! ## A table of notes -/

def letters (count : Nat) : String := String.ofList (List.replicate count 'a')

/-- A server whose values are texts of one letter, by their lengths. -/
def lettersServer : SqlServer Int Nat where
  fetch count := .string (letters count)
  bind _ value :=
    match value with
    | .null => some none
    | .string text => some (some text.length)
    | _ => none
  ilike count value :=
    match value with
    | .string text => text.length ≤ count
    | _ => false

/-- A worker on that server. -/
def notesWorker : Worker Int Nat where
  target := .ops
  cursorKey := String.ofList (List.replicate 43 'A' ++ ['='])
  crypto := .plain
  server := lettersServer
  cells :=
    { maskPiiValue := fun _ _ => "***"
      sha256 := fun _ => ""
      toText := fun _ => ""
      slice := fun text length => String.ofList (text.toList.take length) }

def noteName (index : Nat) : String := "note" ++ toString index

def textColumn (name : String) : DatabaseExplorerColumn := ⟨name, "text", .«public», true, []⟩

/-- The relation `notes` with some columns of notes. -/
def notesRelation (notes : Nat) : DatabaseExplorerRelation where
  name := "notes"
  columns := textColumn "id" :: (List.range notes).map fun index => textColumn (noteName index)
  dataAvailable := true
  paginationKey := some ["id"]

def notesSnapshot (notes : Nat) : DatabaseExplorerSchemaSnapshot where
  targetId := .ops
  checksum := "c1"
  policyVersion := "v1"
  schemas := [⟨"public", [notesRelation notes]⟩]
  edges := []

def noteRow (id : Nat) : Row Nat := fun column => some (if column = "id" then id else 64000)

/-- The contents of `notes`. -/
def notesDatabase (ids : List Nat) : Database Nat where
  checksum := "c1"
  table _ _ :=
    { dataType := fun _ => "text"
      rows := ids.map noteRow }

def notesRequest : DatabaseRowsRequest where
  targetId := .ops
  schema := "public"
  relation := "notes"
  pageSize := 25
  cursor := none
  sort := none
  filters := []
  piiMode := .masked

/-- Calls at one time, each under the same nonce. -/
def notesCalls (_ : Nat) : Call Int where
  decodedAt := 0
  issuedAt := 0
  nonce := List.replicate 12 0
  encodeRowRef _ _ _ := none

theorem notes_timely : Timely notesCalls := by
  have early : (0 : Int) < 0 + cursorExpiryMs := by decide
  exact fun _ => ⟨rfl, early⟩

/-- Any notes with distinct ids can be explored. -/
theorem notes_explorable (notes : Nat) {ids : List Nat} (distinct : ids.Nodup) :
    Explorable notesWorker (notesDatabase ids) (notesSnapshot notes) [] notesRequest
      (notesRelation notes) ["id"] ⟨notesRelation notes, [], []⟩ where
  requested := rfl
  accepted := rfl
  bound := rfl
  live := rfl
  stable := rfl
  readable := by
    intro column member
    rw [List.mem_singleton.mp member]
    exact ⟨textColumn "id", List.mem_cons_self .., rfl⟩
  present := by
    intro row stored column member
    obtain ⟨id, -, rfl⟩ := mem_map.mp stored
    exact Option.some_ne_none _
  unique := by
    apply List.pairwise_map.mpr
    refine distinct.imp ?_
    intro left right different
    refine ⟨"id", List.mem_cons_self .., ?_⟩
    simpa [noteRow] using different
  roundTrips := by
    intro row stored column member value known
    refine ⟨rfl, ?_⟩
    have length : (letters value).length = value := by
      rw [letters, String.length_ofList, List.length_replicate]
    have bound : lettersServer.bind "text" (.string (letters value)) =
        some (some (letters value).length) := rfl
    rw [length] at bound
    exact bound

/-- Whether the page of one note fits a response. -/
def noteFits (id : Nat) : Bool :=
  match encodePageRows notesWorker (notesCalls 1) (notesSnapshot 0) (notesRelation 0) notesRequest 0
      (fetchRows notesWorker.server notesRequest ⟨notesRelation 0, [], []⟩ [noteRow id]) with
  | none => false
  | some rows => !(encodeRowPage rows maxResponseBytes).truncated

/-- A page of one note is answered, without a cursor. -/
theorem respond_note (cursor : Option String) (decoded : Option (CursorData Int)) {id : Nat}
    (fits : noteFits id) :
    ∃ response, respond notesWorker (notesCalls 1) (notesSnapshot 0) (notesRelation 0)
        { notesRequest with cursor := cursor } decoded
        (fetchRows notesWorker.server notesRequest ⟨notesRelation 0, [], []⟩ [noteRow id]) =
          .ok response ∧ response.nextCursor = none := by
  have last : nextCursorOf notesWorker (notesCalls 1) (notesSnapshot 0) (notesRelation 0)
      { notesRequest with cursor := cursor } decoded
      (fetchRows notesWorker.server notesRequest ⟨notesRelation 0, [], []⟩ [noteRow id]) =
        .ok none := if_neg (show ¬ 25 < 1 by decide)
  have same : encodePageRows notesWorker (notesCalls 1) (notesSnapshot 0) (notesRelation 0)
      { notesRequest with cursor := cursor } 0
      ((fetchRows notesWorker.server notesRequest ⟨notesRelation 0, [], []⟩ [noteRow id]).take
        notesRequest.pageSize) =
        encodePageRows notesWorker (notesCalls 1) (notesSnapshot 0) (notesRelation 0) notesRequest 0
          (fetchRows notesWorker.server notesRequest ⟨notesRelation 0, [], []⟩ [noteRow id]) := rfl
  unfold respond
  rw [last]
  rw [same]
  unfold noteFits at fits
  split at fits
  · cases fits
  · next rows encoded =>
    rw [encoded]
    dsimp only
    rw [if_neg (by rw [Bool.not_eq_true]; simpa using fits)]
    exact ⟨_, rfl, rfl⟩

/-- Following the cursors of twenty-six short notes comes to its end. -/
theorem notes_complete : (follow (readPage notesWorker (notesDatabase (List.range 26))
    (notesSnapshot 0) [] notesRequest notesCalls) 27 0 none).2 = .complete := by
  have explorable := notes_explorable 0 (List.nodup_range (n := 26))
  have goes : ((readPage notesWorker (notesDatabase (List.range 26)) (notesSnapshot 0) []
      notesRequest notesCalls 0 none).toOption.bind DatabaseRowsResponse.nextCursor).isSome =
        true := by decide +kernel
  have fits : ∀ id ∈ List.range 26, noteFits id := by decide +kernel
  have count : (requestedRows notesWorker.server (notesDatabase (List.range 26)) notesRequest
      ⟨notesRelation 0, [], []⟩).length = 25 + 1 := by decide +kernel
  obtain ⟨note, rest⟩ := List.length_eq_one_iff.mp
    (show ((requestedRows notesWorker.server (notesDatabase (List.range 26)) notesRequest
      ⟨notesRelation 0, [], []⟩).drop notesRequest.pageSize).length = 1 by
        rw [List.length_drop, count]
        rfl)
  have member : note ∈ ((notesDatabase (List.range 26)).table notesRequest.schema
      notesRequest.relation).rows := by
    apply mem_requestedRows
    apply List.mem_of_mem_drop
    rw [rest]
    exact List.mem_singleton_self note
  obtain ⟨id, small, rfl⟩ := mem_map.mp member
  have long : notesRequest.pageSize < (requestedRows notesWorker.server
      (notesDatabase (List.range 26)) notesRequest ⟨notesRelation 0, [], []⟩).length := by
    rw [count]
    exact Nat.lt_succ_self 25
  have start : Position notesWorker (notesSnapshot 0) notesRequest (notesRelation 0) ["id"]
      (requestedRows notesWorker.server (notesDatabase (List.range 26)) notesRequest
        ⟨notesRelation 0, [], []⟩) (notesCalls 0) none _ := rfl
  obtain ⟨begun, first⟩ := read_page explorable start
  cases answered : readPage notesWorker (notesDatabase (List.range 26)) (notesSnapshot 0) []
      notesRequest notesCalls 0 none with
  | error failure =>
    rw [answered] at goes
    cases goes
  | ok response =>
    rw [answered] at first
    have next := (respond_fetched _ explorable.stable explorable.relation_eq first.symm).2
    obtain ⟨before, last, -, isLast, around⟩ := Keyset.take_split (by decide) long
    obtain ⟨token, cursors, encoded⟩ := next last isLast
    have position := next_position notes_timely around encoded
    rw [rest] at position
    obtain ⟨decoded, second⟩ := read_page explorable position
    obtain ⟨answer, ends, lastPage⟩ := respond_note (some token) decoded (fits id small)
    rw [ends] at second
    unfold follow
    rw [answered]
    dsimp only
    rw [cursors]
    dsimp only
    unfold follow
    rw [second]
    dsimp only
    rw [lastPage]
/-- Twenty-six short notes are read in two pages. -/
theorem notes_read :
    ((follow (readPage notesWorker (notesDatabase (List.range 26)) (notesSnapshot 0) []
        notesRequest notesCalls) 27 0 none).1.flatMap DatabaseRowsResponse.rows).map
          (fun row => some row.cells) =
      (requestedRows notesWorker.server (notesDatabase (List.range 26)) notesRequest
        ⟨notesRelation 0, [], []⟩).map (shownCells notesWorker (notesRelation 0) .masked) :=
  (follow_pages (notes_explorable 0 List.nodup_range) notes_timely (by decide +kernel)).2
    notes_complete

/-- A text that fits a cell is shown whole. -/
theorem encodeCell_letters (name : String) {count : Nat} (short : count ≤ maxCellBytes) :
    encodeCell notesWorker.cells (textColumn name) (.string (letters count)) .masked =
      some (.value (.string (letters count))) := by
  have ascii : ∀ symbol ∈ (letters count).toList, symbol.toNat < 128 := by
    intro symbol member
    rw [letters, String.toList_ofList] at member
    rw [List.eq_of_mem_replicate member]
    decide
  have bytes : Utf8.byteLength (letters count).toList = count := by
    rw [Utf8.byteLength_ascii ascii, letters, String.toList_ofList, List.length_replicate]
  have text : ¬ lowerCase "text" = ['b', 'y', 't', 'e', 'a'] := by decide
  simp [encodeCell, textColumn, text, isBuffer, bytes, Nat.not_lt.mpr short]

/-- The cells of a row of notes. -/
theorem shownCells_notes (notes : Nat) {id : Nat} (short : id ≤ maxCellBytes) :
    shownCells notesWorker (notesRelation notes) .masked (noteRow id) =
      some ((notesRelation notes).columns.map fun column =>
        (column.name, .value (.string (letters (if column.name = "id" then id else 64000))))) := by
  have texts : ∀ column ∈ (notesRelation notes).columns, column = textColumn column.name := by
    intro column member
    rcases List.mem_cons.mp member with rfl | member
    · rfl
    · obtain ⟨index, -, rfl⟩ := mem_map.mp member
      rfl
  have readable : selectableColumns (notesRelation notes) = (notesRelation notes).columns := by
    rw [selectableColumns, List.filter_eq_self]
    intro column member
    rw [texts column member]
    rfl
  have cell : ∀ column ∈ (notesRelation notes).columns,
      encodeCell notesWorker.cells column
        (notesWorker.server.project
          ((selectableColumns (notesRelation notes)).map name) (noteRow id)
          column.name) .masked =
        some (.value (.string (letters (if column.name = "id" then id else 64000)))) := by
    intro column member
    have listed : ((selectableColumns (notesRelation notes)).map
        name).contains column.name = true := by
      rw [readable, List.contains_iff_mem]
      exact List.mem_map_of_mem member
    have fetched : notesWorker.server.project
        ((selectableColumns (notesRelation notes)).map name) (noteRow id)
        column.name = .string (letters (if column.name = "id" then id else 64000)) := by
      rw [SqlServer.project, if_pos listed]
      rfl
    rw [fetched, texts column member]
    apply encodeCell_letters
    split
    · exact short
    · decide
  have all : ∀ columns ⊆ (notesRelation notes).columns,
      (columns.mapM fun column => (encodeCell notesWorker.cells column
        (notesWorker.server.project
          ((selectableColumns (notesRelation notes)).map name) (noteRow id)
          column.name) .masked).map fun cell => (column.name, cell)) =
        some (columns.map fun column =>
          (column.name, .value (.string (letters (if column.name = "id" then id else 64000))))) := by
    intro columns inside
    induction columns with
    | nil => rfl
    | cons column columns ih =>
      obtain ⟨here, rest⟩ := List.cons_subset.mp inside
      rw [List.mapM_cons, cell column here, ih rest]
      rfl
  exact all _ (List.Subset.refl _)

theorem noteName_ne (index : Nat) : noteName index ≠ "id" := by
  intro same
  have lengths := congrArg String.length same
  have four : "note".length = 4 := rfl
  have two : "id".length = 2 := rfl
  rw [noteName, String.length_append] at lengths
  omega

/-- The cells of the notes alone have 64000 symbols each. -/
theorem sum_columns_le (notes id : Nat) :
    notes * 64000 ≤ (((notesRelation notes).columns.map fun column =>
      (column.name, (DatabaseCell.value (.string (letters
        (if column.name = "id" then id else 64000))) : DatabaseCell Int))).map
          fun cell => (Json.renderChars cell.2.toJson).length).sum := by
  have long := length_le_cell (ν := Int) (letters 64000)
  rw [letters, String.toList_ofList, List.length_replicate] at long
  have total := Nat.mul_le_mul_left notes long
  simp only [notesRelation, map_cons, List.map_map, comp_def, List.sum_cons,
    textColumn, noteName_ne, if_false, List.map_const', List.length_range, List.sum_replicate_nat,
    letters]
  exact total.trans (Nat.le_add_left ..)

/-- A row of 33 notes is too long for a response, so reading its table does not come to an
end. -/
theorem wide_row_refused :
    Explorable notesWorker (notesDatabase [1]) (notesSnapshot 33) [] notesRequest
        (notesRelation 33) ["id"] ⟨notesRelation 33, [], []⟩ ∧
      Timely notesCalls ∧
      ∀ fuel, (follow (readPage notesWorker (notesDatabase [1]) (notesSnapshot 33) [] notesRequest
        notesCalls) fuel 0 none).2 ≠ .complete := by
  have explorable := notes_explorable 33 (List.nodup_singleton 1)
  refine ⟨explorable, notes_timely, ?_⟩
  have refused : ∃ failure, readPage notesWorker (notesDatabase [1]) (notesSnapshot 33) []
      notesRequest notesCalls 0 none = .error failure := by
    have position : Position notesWorker (notesSnapshot 33) notesRequest (notesRelation 33) ["id"]
        (requestedRows notesWorker.server (notesDatabase [1]) notesRequest
          ⟨notesRelation 33, [], []⟩) (notesCalls 0) none [noteRow 1] := rfl
    obtain ⟨decoded, answered⟩ := read_page explorable position
    rw [answered]
    cases outcome : respond notesWorker (notesCalls 0) (notesSnapshot 33) (notesRelation 33)
        { notesRequest with cursor := none } decoded
        (fetchRows notesWorker.server notesRequest ⟨notesRelation 33, [], []⟩ [noteRow 1]) with
    | error failure => exact ⟨failure, rfl⟩
    | ok response =>
      obtain ⟨-, shown, fits⟩ := respond_ok outcome
      have cells : response.rows.map (fun row => some row.cells) =
          [shownCells notesWorker (notesRelation 33) .masked (noteRow 1)] := shown
      rw [shownCells_notes 33 (by decide)] at cells
      obtain ⟨row, others, found⟩ : ∃ row others, response.rows = row :: others := by
        cases rows : response.rows with
        | nil =>
          rw [rows] at cells
          cases cells
        | cons row others => exact ⟨row, others, rfl⟩
      have bound := fits row (found ▸ List.mem_cons_self ..)
      rw [found] at cells
      have same := Option.some.inj (List.cons.inj cells).1
      have long := (sum_columns_le 33 1).trans (same ▸ sum_cells_le row)
      have limit : maxResponseBytes < 33 * 64000 := by decide
      omega
  intro fuel
  cases fuel with
  | zero => exact Outcome.noConfusion
  | succ fuel =>
    obtain ⟨failure, answer⟩ := refused
    rw [follow, answer]
    exact Outcome.noConfusion

end NancyMan.Explorer
