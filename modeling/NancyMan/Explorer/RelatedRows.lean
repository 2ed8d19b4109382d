import NancyMan.Explorer.RowReader

/-!
# Following a foreign key

A row reference is opened and its claims become values again; the constraint that the request
names is looked up among the snapshot's edges, and the rows of the edge's other end are read
whose columns equal the reference's values.
-/
namespace NancyMan.Explorer

structure DatabaseRelatedRowsRequest where
  targetId : DatabaseTargetId
  schema : String
  relation : String
  constraint : String
  rowRef : String
  pageSize : Nat
  cursor : Option String
  piiMode : PiiMode

/-! ## Row references -/

/-- `ROW_REF_BINARY_TAG`. -/
def rowRefBinaryTag : String := "$databaseExplorerBinaryV1"

/-- `ROW_REF_DATE_TAG`. -/
def rowRefDateTag : String := "$databaseExplorerDateV1"

structure RowRefData (ν : Type) where
  context : Context
  issuedAt : Int
  expiresAt : Int
  keys : List (String × PgValue ν)

/-- `Object.entries`: of several properties of one name the last counts. -/
def objectEntries (properties : List (String × Json)) : List (String × Json) :=
  (properties.map Prod.fst).dedup.filterMap fun name =>
    (Json.lastProperty name properties).map fun value => (name, value)

section

variable {ν : Type} [JsonRuntime ν] (parseDate : String → Option Int)

/-- A claim of `reviveRowRefPayload`, with `Date.parse`. -/
def reviveClaim : Json → Option (PgValue ν)
  | .null => some .null
  | .boolean value => some (.boolean value)
  | .string value => some (.string value)
  | .number literal =>
    let value : ν := JsonRuntime.readNumber literal
    if (JsonRuntime.numberText value).isSome then some (.number value) else none
  | .array _ => none
  | .object properties =>
    match objectEntries properties with
    | [(tag, .string text)] =>
      if tag = rowRefBinaryTag then
        let bytes := Base64Url.decode text.toList
        if Base64Url.encodePadded bytes = text.toList then some (.buffer bytes) else none
      else if tag = rowRefDateTag then
        match parseDate text with
        | none => none
        | some time => if JsonRuntime.isoText ν time = text then some (.date (some time)) else none
      else none
    | _ => none

/-- The type tests of `validateRowRefShape`, and the claims revived. -/
def RowRefData.ofJson? (record : Json) : Option (RowRefData ν) := do
  let targetId ← DatabaseTargetId.ofText (← (← record.property? "targetId").string?)
  let schema ← (← record.property? "schema").string?
  let relation ← (← record.property? "relation").string?
  let checksum ← (← record.property? "checksum").string?
  guard (integer? ν (← record.property? "version") = some 1)
  let issuedAt ← integer? ν (← record.property? "issuedAt")
  let expiresAt ← integer? ν (← record.property? "expiresAt")
  let claims ← match ← record.property? "keys" with
    | .object properties => some (objectEntries properties)
    | _ => none
  let keys ← claims.mapM fun claim =>
    (reviveClaim parseDate claim.2).map fun value => (claim.1, value)
  -- `keys['__proto__'] = …` writes no property of the object that collects the claims.
  some ⟨⟨targetId, schema, relation, checksum⟩, issuedAt, expiresAt,
    keys.filter fun key => key.1 ≠ "__proto__"⟩

/-- What `validateRowRef` demands of a reference of the right shape with revived claims. -/
def validateRowRef (rowRef : RowRefData ν) : Bool :=
  validateContext rowRef.context && validateTimes rowRef.issuedAt rowRef.expiresAt &&
    !rowRef.keys.isEmpty && rowRef.keys.all fun key => key.1 ≠ ""

/-- `decodeRowRef` at a time. -/
def decodeRowRef (crypto : TokenCrypto) (parseDate : String → Option Int)
    (encodedRowRef key : String) (expected : Context) (now : Int) :
    Except ExplorerError (RowRefData ν) :=
  match openToken ν crypto encodedRowRef .rowRef key expected with
  | .error error => .error error
  | .ok payload =>
    match RowRefData.ofJson? parseDate payload with
    | none => .error cursorError
    | some rowRef =>
      if !validateRowRef rowRef then .error cursorError
      else if rowRef.expiresAt ≤ now then .error cursorError
      else if rowRef.context ≠ expected then .error cursorError
      else .ok rowRef

end

/-- A reference that opens to a valid and timely record of its context is decoded to it. -/
theorem decodeRowRef_opened {ν : Type} [JsonRuntime ν] {crypto : TokenCrypto}
    {parseDate : String → Option Int} {encodedRowRef key : String} {expected : Context} {now : Int}
    {payload : Json} {rowRef : RowRefData ν}
    (opened : openToken ν crypto encodedRowRef .rowRef key expected = .ok payload)
    (revived : RowRefData.ofJson? parseDate payload = some rowRef) (valid : validateRowRef rowRef)
    (timely : now < rowRef.expiresAt) (same : rowRef.context = expected) :
    decodeRowRef crypto parseDate encodedRowRef key expected now = .ok rowRef := by
  unfold decodeRowRef
  rw [opened]
  dsimp only
  rw [revived]
  dsimp only
  rw [valid, Bool.not_true, if_neg Bool.false_ne_true, if_neg (Int.not_le.mpr timely),
    if_neg (not_not_intro same)]

/-! ## The other end of a constraint -/

def EdgeEnd.isOf (edgeEnd : EdgeEnd) (schema relation : String) : Bool :=
  edgeEnd.schema = schema && edgeEnd.relation = relation

variable (snapshot : DatabaseExplorerSchemaSnapshot)

/-- The edge that a constraint names at a relation. -/
def findEdge (schema relation constraint : String) : Option DatabaseRelationEdge :=
  (snapshot.edges.filter fun edge => edge.constraint = constraint).find? fun edge =>
    edge.source.isOf schema relation || edge.target.isOf schema relation

/-- The end of an edge that is read from a relation, and the relation's own end. A foreign key
from the relation is followed before one to it. -/
def edgeEnds (edge : DatabaseRelationEdge) (schema relation : String) : EdgeEnd × EdgeEnd :=
  if edge.source.isOf schema relation then (edge.target, edge.source)
  else (edge.source, edge.target)

/-- The relation that a constraint leads to from a relation. -/
def leadsTo (schema relation constraint : String) : Option (String × String) :=
  (findEdge snapshot schema relation constraint).map fun edge =>
    let other := (edgeEnds edge schema relation).1
    (other.schema, other.relation)

/-- The edge that a request names, or why there is none. -/
def requestedEdge (request : DatabaseRelatedRowsRequest) : Except ExplorerError DatabaseRelationEdge :=
  match findEdge snapshot request.schema request.relation request.constraint with
  | some edge => .ok edge
  | none =>
    .error (makeExplorerError .relationInvalid
      (some (if snapshot.edges.any fun edge => edge.constraint = request.constraint then
          "Constraint \"" ++ request.constraint ++ "\" does not connect to relation \"" ++
            request.schema ++ "." ++ request.relation ++ "\""
        else
          "Foreign key constraint \"" ++ request.constraint ++
            "\" not found in schema snapshot")))

def invalidPairing (constraint : String) : ExplorerError :=
  makeExplorerError .relationInvalid
    (some ("Constraint \"" ++ constraint ++ "\" has invalid column pairing"))

variable {ν : Type}

/-- The value of a row reference that a column of the other end must equal. -/
def trustedEquality (constraint : String) (keys : List (String × PgValue ν))
    (pair : String × String) : Except ExplorerError (TrustedEquality ν) :=
  if pair.1 = "" ∨ pair.2 = "" then .error (invalidPairing constraint)
  else
    match keys.lookup pair.2 with
    | none | some .null =>
      .error (makeExplorerError .relationInvalid
        (some ("Row reference does not contain required key column \"" ++ pair.2 ++
          "\" for foreign key traversal")))
    | some value => .ok ⟨pair.1, value⟩

/-- The equalities that tie rows of the other end to a row reference. -/
def trustedEqualities (constraint : String) (keys : List (String × PgValue ν))
    (target source : EdgeEnd) : Except ExplorerError (List (TrustedEquality ν)) :=
  if source.columns.length = 0 ∨ source.columns.length ≠ target.columns.length then
    .error (invalidPairing constraint)
  else (target.columns.zip source.columns).mapM (trustedEquality constraint keys)

/-- The request for the rows of the other end. -/
def relatedRequest (request : DatabaseRelatedRowsRequest) (target : EdgeEnd) :
    DatabaseRowsRequest where
  targetId := request.targetId
  schema := target.schema
  relation := target.relation
  pageSize := request.pageSize
  cursor := request.cursor.filter fun cursor => cursor ≠ ""
  sort := none
  filters := []
  piiMode := request.piiMode

/-- What following a foreign key takes from its surroundings: `Date.parse`, the time at which
the row reference is opened, and the call that reads the rows. -/
structure RelatedCall (ν : Type) where
  parseDate : String → Option Int
  openedAt : Int
  read : Call ν

variable {V : Type} [JsonRuntime ν] [LinearOrder V]

def readRelatedRows (worker : Worker ν V) (database : Database V) (call : RelatedCall ν)
    (snapshot : DatabaseExplorerSchemaSnapshot) (request : DatabaseRelatedRowsRequest) :
    Except ReadFailure (DatabaseRowsResponse ν) :=
  match decodeRowRef (ν := ν) worker.crypto call.parseDate request.rowRef worker.cursorKey
      ⟨worker.target, request.schema, request.relation, snapshot.checksum⟩ call.openedAt with
  | .error error => .error (.explorer error)
  | .ok rowRef =>
    match requestedEdge snapshot request with
    | .error error => .error (.explorer error)
    | .ok edge =>
      let ends := edgeEnds edge request.schema request.relation
      match trustedEqualities request.constraint rowRef.keys ends.1 ends.2 with
      | .error error => .error (.explorer error)
      | .ok equalities =>
        readDatabaseRows worker database call.read snapshot equalities
          (relatedRequest request ends.1)

/-- With its row reference decoded and its columns paired, a request is read from the other
end of its edge. -/
theorem readRelatedRows_decoded {worker : Worker ν V} {database : Database V}
    {call : RelatedCall ν} {snapshot : DatabaseExplorerSchemaSnapshot}
    {request : DatabaseRelatedRowsRequest} {rowRef : RowRefData ν} {edge : DatabaseRelationEdge}
    {target source : EdgeEnd} {equalities : List (TrustedEquality ν)}
    (decoded : decodeRowRef worker.crypto call.parseDate request.rowRef worker.cursorKey
      ⟨worker.target, request.schema, request.relation, snapshot.checksum⟩ call.openedAt =
        .ok rowRef)
    (requested : requestedEdge snapshot request = .ok edge)
    (ends : edgeEnds edge request.schema request.relation = (target, source))
    (paired : trustedEqualities request.constraint rowRef.keys target source = .ok equalities) :
    readRelatedRows worker database call snapshot request =
      readDatabaseRows worker database call.read snapshot equalities
        (relatedRequest request target) := by
  unfold readRelatedRows
  rw [decoded]
  rw [requested]
  dsimp only
  rw [ends]
  rw [paired]

/-! ## What a response says of itself -/

/-- A response names the target, the relation and the mode of its request. -/
theorem readDatabaseRows_answers {worker : Worker ν V} {database : Database V} {call : Call ν}
    {snapshot : DatabaseExplorerSchemaSnapshot} {trusted : List (TrustedEquality ν)}
    {request : DatabaseRowsRequest} {response : DatabaseRowsResponse ν}
    (succeeds : readDatabaseRows worker database call snapshot trusted request = .ok response) :
    response.targetId = request.targetId ∧ response.schema = request.schema ∧
      response.relation = request.relation ∧ response.piiMode = request.piiMode := by
  unfold readDatabaseRows at succeeds
  split at succeeds
  · cases succeeds
  · next relation known =>
    have target : request.targetId = worker.target := by
      by_contra other
      unfold requestedRelation at known
      split at known
      · cases known
      · rw [if_pos (.inl other)] at known
        cases known
    split at succeeds
    · cases succeeds
    · unfold queryPage at succeeds
      dsimp only at succeeds
      split at succeeds
      · cases succeeds
      · split at succeeds
        · cases succeeds
        · split at succeeds
          · cases succeeds
          · unfold respond at succeeds
            split at succeeds
            · cases succeeds
            · split at succeeds
              · cases succeeds
              · dsimp only at succeeds
                split at succeeds
                · cases succeeds
                · cases succeeds
                  exact ⟨target.symm, rfl, rfl, rfl⟩

/-- A response of related rows names the relation that the constraint leads to. -/
theorem readRelatedRows_answers {worker : Worker ν V} {database : Database V}
    {call : RelatedCall ν} {snapshot : DatabaseExplorerSchemaSnapshot}
    {request : DatabaseRelatedRowsRequest} {response : DatabaseRowsResponse ν}
    (succeeds : readRelatedRows worker database call snapshot request = .ok response) :
    response.targetId = request.targetId ∧ response.piiMode = request.piiMode ∧
      leadsTo snapshot request.schema request.relation request.constraint =
        some (response.schema, response.relation) := by
  unfold readRelatedRows at succeeds
  split at succeeds
  · cases succeeds
  · split at succeeds
    · cases succeeds
    · next edge requested =>
      dsimp only at succeeds
      split at succeeds
      · cases succeeds
      · obtain ⟨target, schema, relation, mode⟩ := readDatabaseRows_answers succeeds
        have found : findEdge snapshot request.schema request.relation request.constraint =
            some edge := by
          unfold requestedEdge at requested
          split at requested
          · next found =>
            cases requested
            exact found
          · cases requested
        refine ⟨target, mode, ?_⟩
        rw [leadsTo, found, schema, relation]
        rfl

end NancyMan.Explorer
