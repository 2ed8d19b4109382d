import NancyMan.Lib.Program
import NancyMan.SqlWorker.ReadClassification
import NancyMan.SqlWorker.ReadPreview
import Mathlib.Data.List.DropRight

/-!
# The execution of read-only statements

A statement that is classified as read only is declared as a cursor in a read-only transaction, and the
rows that are fetched from it are returned. `allowed_reads_iff` says for which inputs an allowed
statement changes and locks nothing and is never rejected for its kind.
-/
namespace NancyMan.SqlWorker.ReadExecution

open Async

open Explorer (JsonRuntime)
open Explorer.Driver (Value)

/-- Why PostgreSQL fails a query: a cursor was declared for a statement that is no query, or something
else. -/
inductive PostgresError where
  | notCursorQuery
  | failed (code : String)
deriving DecidableEq

/-- What `executeReadOnly` throws. -/
inductive ReadError where
  | readOnlyRequired
  | database (error : PostgresError)

/-- The answer to a query. -/
abbrev Answer (ν : Type) : Type := Except PostgresError (List (Value ν))

abbrev ReadProgram (ν α : Type) : Type := Async String (fun _ => Answer ν) Unit ReadError α

variable {μ ν ε : Type} (sql : String)

/-- `await input.database.query(sql)`. -/
def query : ReadProgram ν (List (Value ν)) := do
  match ← Async.perform sql with
  | .ok rows => pure rows
  | .error error => Async.throw (.database error)

/-- `sql.replace(/;\s*$/, '').trim()`. -/
def cursorStatement : String :=
  let ended := sql.toList.rdropWhile isWhitespace
  String.ofList (trim (if ended.getLast? = some ';' then ended.dropLast else sql.toList))

def declaration : String :=
  "DECLARE ops_read_cursor NO SCROLL CURSOR FOR " ++ cursorStatement sql

def executeReadOnly [JsRuntime μ] [JsonRuntime ν] (parse : String → Except ε (List (JsValue μ)))
    (numberString : ν → String) (sql : String) (maxRows : Option Nat) : ReadProgram ν BoundedRows :=
  match classifyReadOnlySql parse sql with
  | .readOnlyRequired => Async.throw .readOnlyRequired
  | .allowed _ => do
    let _ ← query "BEGIN READ ONLY"
    Async.tryCatch (do
        let _ ← query "SET LOCAL statement_timeout = '30s'"
        let _ ← query "SET LOCAL lock_timeout = '3s'"
        let _ ← query (declaration sql)
        let rows ← query ("FETCH FORWARD " ++ toString (previewRows maxRows + 1) ++
          " FROM ops_read_cursor")
        let _ ← query "CLOSE ops_read_cursor"
        let _ ← query "ROLLBACK"
        pure (SqlWorker.executeReadOnly numberString maxRows rows))
      fun error => do
        let _ ← query "ROLLBACK"
        Async.throw error

/-- The server rejects a declaration for its kind exactly where the statement of the input is no query
for a cursor, and nothing else. -/
def ChecksKind (statement : JsValue μ) (answered : (_ : String) × Answer ν) : Prop :=
  answered.2 = .error .notCursorQuery ↔ answered.1 = declaration sql ∧ ¬CursorQuery statement

/-- An execution is never rejected for the kind of its statement. -/
def NeverRejected [JsRuntime μ] [JsonRuntime ν] (parse : String → Except ε (List (JsValue μ)))
    (numberString : ν → String) (sql : String) (statement : JsValue μ) : Prop :=
  ∀ maxRows trace outcome,
    Program.Returns (executeReadOnly parse numberString sql maxRows ()) trace outcome →
      (∀ answered ∈ trace, ChecksKind sql statement answered) →
        outcome.1 ≠ .error (.database .notCursorQuery)

/-- What is allowed is one statement of which no node changes or locks rows and which is never rejected
for its kind. -/
def AllowedReads [JsRuntime μ] [JsonRuntime ν] (parse : String → Except ε (List (JsValue μ)))
    (numberString : ν → String) (sql : String) : Prop :=
  ∀ kind, classifyReadOnlySql parse sql = .allowed kind →
    ∃ statement, parse sql = .ok [statement] ∧ (∀ node, statement.Holds node → OnlyReads node) ∧
      NeverRejected parse numberString sql statement

/-! ## Rejections -/

/-- The failures that the server has answered with, the last one first. -/
def failures : Monitor String (fun _ => Answer ν) (List PostgresError) where
  permits _ _ := True
  observe failed _ answer :=
    match answer with
    | .ok _ => failed
    | .error error => error :: failed

/-- A failure of the database is thrown only where it was answered. -/
def Thrown (error : ReadError) (failed : List PostgresError) : Prop :=
  ∀ reason, error = .database reason → reason ∈ failed

variable {failed : List PostgresError}

theorem ensures_query {sql : String} {post : List (Value ν) → Unit → List PostgresError → Prop}
    {fails : ReadError → Unit → List PostgresError → Prop} (returns : ∀ rows, post rows () failed)
    (throws : ∀ error, fails (.database error) () (error :: failed)) :
    Async.Ensures failures (query sql) post fails () failed := by
  refine ensures_bind (ensures_perform trivial fun answer => ?_)
  cases answer with
  | ok rows => exact ensures_pure (returns rows)
  | error error => exact ensures_throw (throws error)

theorem thrown_own (error : PostgresError) (failed : List PostgresError) :
    Thrown (.database error) (error :: failed) := by
  intro reason same
  cases same
  exact .head _

/-- The failures that are collected are those of the answers. -/
theorem answered_of_failure {trace : List ((_ : String) × Answer ν)} {error : PostgresError}
    (collected : error ∈ trace.foldl (fun failed answered =>
      failures.observe failed answered.1 answered.2) failed) :
    error ∈ failed ∨ ∃ answered ∈ trace, answered.2 = .error error := by
  induction trace generalizing failed with
  | nil => exact .inl collected
  | cons answered rest ih =>
    rcases ih collected with before | ⟨later, member, same⟩
    · obtain ⟨sql, rows | reason⟩ := answered
      · rcases List.mem_cons.mp before with rfl | before
        · exact .inr ⟨_, (.head _), rfl⟩
        · exact .inl before
      · exact .inl before
    · exact .inr ⟨later, .tail _ member, same⟩

section Runs

variable {α β : Type} {trace : List ((_ : String) × Answer ν)} {outcome : Except ReadError β × Unit}
  {rest : List (Value ν) → ReadProgram ν β} {handler : ReadError → ReadProgram ν β} (sql : String)

theorem returns_query (rows : List (Value ν))
    (returned : Program.Returns (rest rows ()) trace outcome) :
    Program.Returns ((query sql >>= rest) ()) (⟨sql, .ok rows⟩ :: trace) outcome :=
  Program.Returns.call (R := fun _ => Answer ν) sql _ (Except.ok rows) returned

theorem returns_try (rows : List (Value ν))
    (returned : Program.Returns (tryCatch (rest rows) handler ()) trace outcome) :
    Program.Returns (tryCatch (query sql >>= rest) handler ()) (⟨sql, .ok rows⟩ :: trace)
      outcome :=
  Program.Returns.call (R := fun _ => Answer ν) sql _ (Except.ok rows) returned

theorem returns_caught (error : PostgresError)
    (returned : Program.Returns (handler (.database error) ()) trace outcome) :
    Program.Returns (tryCatch (query sql >>= rest) handler ()) (⟨sql, .error error⟩ :: trace)
      outcome :=
  Program.Returns.call (R := fun _ => Answer ν) sql _ (Except.error error) returned

end Runs

theorem ne_declaration {text : String} (differs : text.toList.head? ≠ some 'D') :
    text ≠ declaration sql := by
  intro same
  have start : "DECLARE ops_read_cursor NO SCROLL CURSOR FOR ".toList.head? = some 'D' := by decide
  have whole : (declaration sql).toList =
      "DECLARE ops_read_cursor NO SCROLL CURSOR FOR ".toList ++ (cursorStatement sql).toList :=
    String.toList_append
  apply differs
  rw [same, whole, List.head?_append, start]
  exact Option.some_or

section Execution

variable [JsRuntime μ] [JsonRuntime ν] (parse : String → Except ε (List (JsValue μ)))

/-- What an execution throws of the database was answered to one of its queries. -/
theorem ensures_executeReadOnly (numberString : ν → String) (sql : String) (maxRows : Option Nat) :
    Async.Ensures failures (executeReadOnly parse numberString sql maxRows) (fun _ _ _ => True)
      (fun error _ => Thrown error) () [] := by
  unfold executeReadOnly
  split
  · exact ensures_throw nofun
  · refine ensures_bind (ensures_query (fun _ => ?_) fun error => thrown_own error _)
    -- Within the transaction a failure is thrown again after the rollback, unless that fails itself.
    have rolledBack (error : PostgresError) (failed : List PostgresError) :
        Async.Ensures failures (do
          let _ ← query (ν := ν) "ROLLBACK"
          throw (α := BoundedRows) (.database error)) (fun _ _ _ => True)
          (fun error _ => Thrown error) () (error :: failed) :=
      ensures_bind (ensures_query (fun _ => ensures_throw (thrown_own error failed))
        fun other => thrown_own other _)
    refine ensures_tryCatch ?_
    refine ensures_bind (ensures_query (fun _ => ?_) fun error => rolledBack error _)
    refine ensures_bind (ensures_query (fun _ => ?_) fun error => rolledBack error _)
    refine ensures_bind (ensures_query (fun _ => ?_) fun error => rolledBack error _)
    refine ensures_bind (ensures_query (fun _ => ?_) fun error => rolledBack error _)
    refine ensures_bind (ensures_query (fun _ => ?_) fun error => rolledBack error _)
    refine ensures_bind (ensures_query (fun _ => ?_) fun error => rolledBack error _)
    exact ensures_pure trivial

variable {sql : String} {statement : JsValue μ}

/-- A query for a cursor is never rejected for its kind. -/
theorem neverRejected_of_query (numberString : ν → String) (isQuery : CursorQuery statement) :
    NeverRejected parse numberString sql statement := by
  intro maxRows trace outcome returned checks rejected
  have ensured := Program.ensures_returns
    (ensures_executeReadOnly parse numberString sql maxRows) returned
  rw [rejected] at ensured
  rcases answered_of_failure (ensured .notCursorQuery rfl) with before | ⟨answered, member, same⟩
  · cases before
  · exact ((checks answered member).mp same).2 isQuery

/-- A statement that is allowed and no query for a cursor is rejected. -/
theorem rejected_of_not_query {parse : String → Except ε (List (JsValue μ))}
    (numberString : ν → String) {kind : ReadKind}
    (allowed : classifyReadOnlySql parse sql = .allowed kind) (notQuery : ¬CursorQuery statement) :
    ¬NeverRejected parse numberString sql statement := by
  intro never
  have returned : Program.Returns (executeReadOnly parse numberString sql none ())
      [⟨"BEGIN READ ONLY", .ok []⟩, ⟨"SET LOCAL statement_timeout = '30s'", .ok []⟩,
        ⟨"SET LOCAL lock_timeout = '3s'", .ok []⟩, ⟨declaration sql, .error .notCursorQuery⟩,
        ⟨"ROLLBACK", .ok []⟩] (.error (.database .notCursorQuery), ()) := by
    unfold executeReadOnly
    rw [allowed]
    apply returns_query
    apply returns_try
    apply returns_try
    apply returns_caught
    apply returns_query
    exact .ret _
  refine never none _ _ returned ?_ rfl
  have other {text : String} (differs : text.toList.head? ≠ some 'D') :
      ChecksKind sql statement ⟨text, (.ok [] : Answer ν)⟩ :=
    ⟨nofun, fun ⟨declared, _⟩ => absurd declared (ne_declaration sql differs)⟩
  simp only [List.forall_mem_cons]
  refine ⟨other (by decide), other (by decide), other (by decide), ?_, other (by decide), nofun⟩
  exact ⟨fun _ => ⟨rfl, notQuery⟩, fun _ => rfl⟩

/-- What is allowed only reads and is never rejected for its kind exactly where the input is no `SHOW`,
and no node of an accepted `SELECT` that the classifier does not look at changes or locks rows. -/
theorem allowed_reads_iff (parse : String → Except ε (List (JsValue μ))) (numberString : ν → String)
    (sql : String) :
    AllowedReads parse numberString sql ↔ ∀ statement, parse sql = .ok [statement] →
      isOfType statement "show" = false ∧
        (isReadSelect statement = true → ∀ node, Unread statement node → OnlyReads node) := by
  constructor
  · intro sound statement parsed
    have own {kind : ReadKind} (allowed : classifyReadOnlySql parse sql = .allowed kind) :
        (∀ node, statement.Holds node → OnlyReads node) ∧
          NeverRejected parse numberString sql statement := by
      obtain ⟨other, same, reads, never⟩ := sound kind allowed
      rw [parsed] at same
      cases same
      exact ⟨reads, never⟩
    constructor
    · by_contra shows
      rw [Bool.not_eq_false] at shows
      have allowed := classify_show parsed shows
      exact rejected_of_not_query numberString allowed (not_cursorQuery_show shows) (own allowed).2
    · intro accepted
      exact (reads_iff_unread accepted).mp (own (classify_select parsed accepted)).1
  · intro conditions kind allowed
    obtain ⟨statement, parsed, accepted | shows⟩ := statement_of_allowed allowed
    · refine ⟨statement, parsed, ?_, ?_⟩
      · exact (reads_iff_unread accepted).mpr ((conditions statement parsed).2 accepted)
      · exact neverRejected_of_query parse numberString (cursorQuery_of_isReadSelect accepted)
    · have hidden := (conditions statement parsed).1
      rw [shows] at hidden
      cases hidden

end Execution

/-- `SHOW server_version`. -/
def showVersion : JsValue Float :=
  .object [("type", .string "show"), ("variable", .object [("name", .string "server_version")])]

/-- `SELECT id FROM students FOR UPDATE`. -/
def lockStudents : JsValue Float :=
  .object [("type", .string "select"),
    ("columns", .array [.object [("expr", .object [("type", .string "ref"), ("name", .string "id")])]]),
    ("from", .array [.object [("type", .string "table"),
      ("name", .object [("name", .string "students")])]]),
    ("for", .object [("type", .string "update")])]

/-- `SELECT id FROM (SELECT id FROM students FOR UPDATE) AS chosen`. -/
def lockChosen : JsValue Float :=
  .object [("type", .string "select"),
    ("columns", .array [.object [("expr", .object [("type", .string "ref"), ("name", .string "id")])]]),
    ("from", .array [.object [("type", .string "statement"), ("statement", lockStudents),
      ("alias", .string "chosen")]])]

/-- What the parser returns for two texts. -/
def parseSamples : Except Unit (List (JsValue Float)) :=
  if sql = "SHOW server_version" then .ok [showVersion]
  else if sql = "SELECT id FROM (SELECT id FROM students FOR UPDATE) AS chosen" then .ok [lockChosen]
  else .error ()

/-- `SHOW` is allowed and rejected for its kind, and a sub-select that locks its rows is allowed. -/
theorem show_and_locks_allowed :
    ¬AllowedReads parseSamples (toString : Int → String) "SHOW server_version" ∧
      ¬AllowedReads parseSamples (toString : Int → String)
        "SELECT id FROM (SELECT id FROM students FOR UPDATE) AS chosen" := by
  constructor
  · intro sound
    have parsed : parseSamples "SHOW server_version" = .ok [showVersion] := rfl
    have shows : isOfType showVersion "show" := by decide
    have allowed := classify_show parsed shows
    obtain ⟨statement, same, -, never⟩ := sound .show allowed
    rw [parsed] at same
    cases same
    exact rejected_of_not_query toString allowed (not_cursorQuery_show shows) never
  · intro sound
    have parsed : parseSamples "SELECT id FROM (SELECT id FROM students FOR UPDATE) AS chosen" =
        .ok [lockChosen] := rfl
    have accepted : isReadSelect lockChosen := (isReadSelect_select (by decide)).mpr rfl
    obtain ⟨statement, same, reads, -⟩ := sound .select (classify_select parsed accepted)
    rw [parsed] at same
    cases same
    have held : lockChosen.Holds lockStudents :=
      .property "from" (.item (.head _) (.property "statement" (.here _)))
    have locks : locksRows lockStudents := by decide
    rw [(reads lockStudents held).2] at locks
    cases locks

end NancyMan.SqlWorker.ReadExecution
