import NancyMan.Explorer.CursorCodec
import NancyMan.Explorer.FilterSql
import NancyMan.Explorer.ValueEncoding

/-!
# The row reader

One request for a page of rows: the cursor is opened and turned into a condition, the query is
run, the extra row tells whether there is a next page, whose cursor carries the last row's key,
and the rows are encoded within the size of a response.
-/
namespace NancyMan.Explorer

variable {ν V : Type} (sort : Option SortDefinition)

def getCursorKeyColumns (paginationKey : List String) : List String :=
  paginationKey.foldl (fun columns column =>
    if columns.contains column then columns else columns ++ [column])
    (sort.map SortDefinition.column).toList

/-- The columns that an edge uses of a relation. -/
def edgeColumns (schema relation : String) (edge : DatabaseRelationEdge) : List String :=
  (if edge.source.schema = schema ∧ edge.source.relation = relation then edge.source.columns
    else []) ++
  (if edge.target.schema = schema ∧ edge.target.relation = relation then edge.target.columns
    else [])

def getRowRefColumns (schema relation : String) (columns : List DatabaseExplorerColumn)
    (paginationKey : Option (List String)) (edges : List DatabaseRelationEdge) :
    Option (List String) :=
  match paginationKey with
  | none | some [] => none
  | some paginationKey =>
    let allowed := (columns.filter fun column =>
      column.selectable && column.classification ≠ .blocked).map DatabaseExplorerColumn.name
    if paginationKey.all allowed.contains then
      some ((edges.flatMap (edgeColumns schema relation)).foldl (fun columns column =>
        if allowed.contains column && !columns.contains column then columns ++ [column]
        else columns) paginationKey)
    else none

/-- Whether a value is `null`. -/
def isNullValue : PgValue ν → Bool
  | .null => true
  | _ => false

/-- The conditions that tie a row to the components of a key, and the values with theirs. -/
def keysetPrefix : List (CursorKey ν) → List (PgValue ν) → List Predicate × List (PgValue ν)
  | [], values => ([], values)
  | key :: keys, values =>
    if isNullValue key.value then
      let rest := keysetPrefix keys values
      (.isNull key.column :: rest.1, rest.2)
    else
      let rest := keysetPrefix keys (values ++ [key.value])
      (.compare key.column .eq (.cursorTag values.length) :: rest.1, rest.2)

/-- The operator that compares a column with the last row's value. -/
def keysetOperator : Direction → ComparisonOperator
  | .desc => .lt
  | .asc => .gt

def keysetComparison (operator : ComparisonOperator) (column : String) (index : Nat) : Predicate :=
  .or (.compare column operator (.cursorTag index)) (.isNull column)

/-- A comparison under the ties of the components before it. -/
def keysetTerm (ties : List Predicate) (comparison : Predicate) : Predicate :=
  match ties with
  | [] => comparison
  | first :: others => .conj first (others ++ [comparison])

/-- The terms of the components after some that are done, and the values with theirs. A
component that is NULL has no term: nothing follows it with NULLs last. -/
def keysetTerms (operator : ComparisonOperator) (done : List (CursorKey ν)) :
    List (CursorKey ν) → List (PgValue ν) → List Predicate × List (PgValue ν)
  | [], values => ([], values)
  | key :: keys, values =>
    let ties := keysetPrefix done values
    if isNullValue key.value then keysetTerms operator (done ++ [key]) keys ties.2
    else
      let rest := keysetTerms operator (done ++ [key]) keys (ties.2 ++ [key.value])
      (keysetTerm ties.1 (keysetComparison operator key.column ties.2.length) :: rest.1, rest.2)

def buildKeysetCondition (keys : List (CursorKey ν)) (direction : Direction) : CursorCondition ν :=
  let terms := keysetTerms (keysetOperator direction) [] keys []
  { predicate := match terms.1 with
      | [] => .never
      | first :: others => .disj first others
    values := terms.2 }

/-- Number a cursor's tags from a parameter on. -/
def numberTag (count start : Nat) : Placeholder → Placeholder
  | .cursorTag index => if index < count then .parameter (start + index) else .cursorTag index
  | place => place

/-- Number the tags of a condition. -/
def numberTags (count start : Nat) : Predicate → Predicate
  | .compare column operator place => .compare column operator (numberTag count start place)
  | .contains column place => .contains column (numberTag count start place)
  | .and left right => .and (numberTags count start left) (numberTags count start right)
  | .or left right => .or (numberTags count start left) (numberTags count start right)
  | other => other

/-- What the worker reads with. -/
structure Worker (ν V : Type) where
  target : DatabaseTargetId
  cursorKey : String
  crypto : TokenCrypto
  server : SqlServer ν V
  cells : CellRuntime ν

/-- What one call takes from its surroundings: its times, the nonce of its cursor, and the row
reference of each row, which is missing when it would be too long. -/
structure Call (ν : Type) where
  decodedAt : Int
  issuedAt : Int
  nonce : List UInt8
  encodeRowRef : Nat → Context → List (String × PgValue ν) → Option String

inductive Consistency where
  | stable
  | bestEffort

structure DatabaseRowsResponse (ν : Type) where
  targetId : DatabaseTargetId
  schemaChecksum : String
  policyVersion : String
  schema : String
  relation : String
  columns : List DatabaseExplorerColumn
  rows : List (EncodedRow ν)
  nextCursor : Option String
  truncated : Bool
  encodedBytes : Nat
  consistency : Consistency
  piiMode : PiiMode

/-- How a call fails: with an explorer error, or with the language's error for a date that has
no ISO text. -/
inductive ReadFailure where
  | explorer (error : ExplorerError)
  | invalidDate

/-- The pagination key of a relation that has one. -/
def stableKey (relation : DatabaseExplorerRelation) : Option (List String) :=
  match relation.paginationKey with
  | none | some [] => none
  | some (column :: columns) => some (column :: columns)

/-- The key of a row that a cursor carries. -/
def cursorKeys (paginationKey : List String) (lastRow : ResultRow ν) : List (CursorKey ν) :=
  (getCursorKeyColumns sort paginationKey).map fun column => ⟨column, lastRow column⟩

variable (target : DatabaseTargetId)

/-- The context of a request's tokens. -/
def requestContext (snapshot : DatabaseExplorerSchemaSnapshot) (request : DatabaseRowsRequest) : Context where
  targetId := target
  schema := request.schema
  relation := request.relation
  checksum := snapshot.checksum

/-- The cursor after the last row of a page of a relation with a pagination key. -/
def keysetCursor (snapshot : DatabaseExplorerSchemaSnapshot) (request : DatabaseRowsRequest)
    (issuedAt : Int) (paginationKey : List String) (lastRow : ResultRow ν) : CursorData ν where
  context := requestContext target snapshot request
  issuedAt := issuedAt
  expiresAt := issuedAt + cursorExpiryMs
  sort := request.sort
  position := .keyset (cursorKeys request.sort paginationKey lastRow)

/-- The cursor at the next offset of a relation without one. -/
def offsetCursor (snapshot : DatabaseExplorerSchemaSnapshot) (request : DatabaseRowsRequest)
    (issuedAt nextOffset : Int) : CursorData ν where
  context := requestContext target snapshot request
  issuedAt := issuedAt
  expiresAt := issuedAt + cursorExpiryMs
  sort := request.sort
  position := .offset nextOffset

section

variable [JsonRuntime ν] (worker : Worker ν V) (call : Call ν)

/-- The decoded cursor of a request, checked against the request's sort and the relation's
key. -/
def readCursor (snapshot : DatabaseExplorerSchemaSnapshot) (relation : DatabaseExplorerRelation)
    (request : DatabaseRowsRequest) : Except ExplorerError (Option (CursorData ν)) :=
  match request.cursor with
  | none | some "" => .ok none
  | some cursor =>
    match decodeCursor worker.crypto cursor worker.cursorKey
        (requestContext worker.target snapshot request) call.decodedAt with
    | .error error => .error error
    | .ok decoded =>
      if decoded.sort ≠ request.sort then .error cursorError
      else
        match decoded.position with
        | .offset _ => .ok (some decoded)
        | .keyset keys =>
          match stableKey relation with
          | none => .error cursorError
          | some paginationKey =>
            if keys.map CursorKey.column = getCursorKeyColumns request.sort paginationKey then
              .ok (some decoded)
            else .error cursorError

/-- The condition of a decoded keyset cursor. -/
def cursorConditionOf (request : DatabaseRowsRequest) (decoded : Option (CursorData ν)) :
    Option (CursorCondition ν) :=
  match decoded with
  | some ⟨_, _, _, _, .keyset keys⟩ =>
    some (buildKeysetCondition keys ((request.sort.map SortDefinition.direction).getD .asc))
  | _ => none

/-- The offset of a decoded offset cursor. -/
def cursorOffset (decoded : Option (CursorData ν)) : Option Int :=
  match decoded with
  | some ⟨_, _, _, _, .offset offset⟩ => some offset
  | _ => none

/-- The query with its cursor's tags numbered: the cursor's values are the last. -/
def finalQuery (built : BuiltRowsQuery ν) (cursorCondition : Option (CursorCondition ν)) :
    RowsQuery :=
  match cursorCondition with
  | none => built.query
  | some condition =>
    let startIndex := built.values.length - condition.values.length + 1
    { built.query with
      predicates := built.query.predicates.map (numberTags condition.values.length startIndex) }

/-- The cursor of the next page, when there is one. -/
def nextCursorOf (snapshot : DatabaseExplorerSchemaSnapshot) (relation : DatabaseExplorerRelation)
    (request : DatabaseRowsRequest) (decoded : Option (CursorData ν))
    (queryRows : List (ResultRow ν)) : Except ExplorerError (Option String) :=
  if request.pageSize < queryRows.length then
    match (queryRows.take request.pageSize).getLast? with
    | none => .ok none
    | some lastRow =>
      match stableKey relation with
      | some paginationKey =>
        (encodeCursor worker.crypto call.nonce
          (keysetCursor worker.target snapshot request call.issuedAt paginationKey lastRow)
          worker.cursorKey).map some
      | none =>
        let nextOffset := (cursorOffset decoded).getD 0 + request.pageSize
        if nextOffset ≤ 10000 then
          (encodeCursor worker.crypto call.nonce
            (offsetCursor (ν := ν) worker.target snapshot request call.issuedAt nextOffset)
            worker.cursorKey).map some
        else .ok none
  else .ok none

/-- The cells of a row in the order of the relation's columns. -/
def encodeCells (relation : DatabaseExplorerRelation) (piiMode : PiiMode) (row : ResultRow ν) :
    Option (List (String × DatabaseCell ν)) :=
  relation.columns.mapM fun column =>
    (encodeCell worker.cells column (row column.name) piiMode).map fun cell => (column.name, cell)

/-- The rows of a page from a position on, with their row references. -/
def encodePageRows (worker : Worker ν V) (call : Call ν)
    (snapshot : DatabaseExplorerSchemaSnapshot) (relation : DatabaseExplorerRelation)
    (request : DatabaseRowsRequest) : Nat → List (ResultRow ν) → Option (List (EncodedRow ν))
  | _, [] => some []
  | index, row :: rows =>
    match encodeCells worker relation request.piiMode row with
    | none => none
    | some cells =>
      let rowRef := (getRowRefColumns request.schema request.relation relation.columns
        relation.paginationKey snapshot.edges).bind fun columns =>
          call.encodeRowRef index (requestContext worker.target snapshot request)
            (columns.map fun column => (column, row column))
      match encodePageRows worker call snapshot relation request (index + 1) rows with
      | none => none
      | some encoded => some (⟨rowRef, cells⟩ :: encoded)

/-- The response to the rows that a query returned. -/
def respond (snapshot : DatabaseExplorerSchemaSnapshot) (relation : DatabaseExplorerRelation)
    (request : DatabaseRowsRequest) (decoded : Option (CursorData ν))
    (queryRows : List (ResultRow ν)) : Except ReadFailure (DatabaseRowsResponse ν) :=
  match nextCursorOf worker call snapshot relation request decoded queryRows with
  | .error error => .error (.explorer error)
  | .ok nextCursor =>
    match encodePageRows worker call snapshot relation request 0
        (queryRows.take request.pageSize) with
    | none => .error .invalidDate
    | some encodedRows =>
      let page := encodeRowPage encodedRows maxResponseBytes
      if page.truncated then .error (.explorer (makeExplorerError .resultTooLarge none))
      else
        .ok
          { targetId := worker.target
            schemaChecksum := snapshot.checksum
            policyVersion := snapshot.policyVersion
            schema := request.schema
            relation := request.relation
            columns := relation.columns
            rows := page.rows
            nextCursor := nextCursor
            truncated := page.truncated
            encodedBytes := page.encodedBytes
            consistency := if (stableKey relation).isSome then .stable else .bestEffort
            piiMode := request.piiMode }

/-- The relation that a request may read, after the checks that need no database. -/
def requestedRelation (snapshot : DatabaseExplorerSchemaSnapshot) (request : DatabaseRowsRequest) :
    Except ExplorerError DatabaseExplorerRelation :=
  if !isDatabasePageSize request.pageSize then
    .error (makeExplorerError .pageTooLarge
      (some ("Invalid page size: " ++ toString request.pageSize ++
        ". Allowed page sizes: 25, 50, 100")))
  else if request.targetId ≠ worker.target ∨ snapshot.targetId ≠ worker.target then
    .error (makeExplorerError .targetInvalid none)
  else
    match findRelation snapshot request.schema request.relation with
    | .error error => .error error
    | .ok relation =>
      if !relation.dataAvailable then
        .error (makeExplorerError .dataPermissionDenied
          (some ("Data browsing is not available for relation \"" ++ request.relation ++ "\"")))
      else .ok relation

variable [LinearOrder V]

/-- Build and run the query of a decoded cursor, and respond to its rows. -/
def queryPage (database : Database V) (call : Call ν) (snapshot : DatabaseExplorerSchemaSnapshot)
    (trustedEqualities : List (TrustedEquality ν)) (request : DatabaseRowsRequest)
    (relation : DatabaseExplorerRelation) (decoded : Option (CursorData ν)) :
    Except ReadFailure (DatabaseRowsResponse ν) :=
  let cursorCondition := cursorConditionOf request decoded
  match buildRowsQuery snapshot request trustedEqualities cursorCondition
      (cursorOffset decoded) with
  | .error error => .error (.explorer error)
  | .ok built =>
    if database.checksum ≠ snapshot.checksum then
      .error (.explorer (makeExplorerError .schemaStale none))
    else
      match worker.server.run database (finalQuery built cursorCondition) built.values with
      | none => .error (.explorer (makeExplorerError .queryFailed none))
      | some queryRows => respond worker call snapshot relation request decoded queryRows

def readDatabaseRows (database : Database V) (call : Call ν)
    (snapshot : DatabaseExplorerSchemaSnapshot) (trustedEqualities : List (TrustedEquality ν))
    (request : DatabaseRowsRequest) : Except ReadFailure (DatabaseRowsResponse ν) :=
  match requestedRelation worker snapshot request with
  | .error error => .error (.explorer error)
  | .ok relation =>
    match readCursor worker call snapshot relation request with
    | .error error => .error (.explorer error)
    | .ok decoded =>
      queryPage worker database call snapshot trustedEqualities request relation decoded

end

end NancyMan.Explorer
