import NancyMan.Lib.JsTree

/-!
# Statements that only read

A statement is allowed by its syntax tree: a `SELECT` without a locking clause, also after a `WITH` of
such statements, and `SHOW`. The tree is read along `WITH` alone. `Unread` names the parts that are not
looked at, and `reads_iff_unread` says that an allowed statement changes and locks what these do.
-/
namespace NancyMan.SqlWorker

variable {μ : Type}

/-- `value.type === type`. -/
def isOfType (value : JsValue μ) (type : String) : Bool :=
  match value.property "type" with
  | .string text => text = type
  | _ => false

/-- `isReadSelect`. A binding that has no properties throws, which is answered as a refusal is. -/
def isReadSelect [JsRuntime μ] : JsValue μ → Bool
  | .object fields =>
    if isOfType (.object fields) "select" then !(JsObject.read fields "for").truthy
    else if isOfType (.object fields) "with" then
      match _bound : JsObject.read fields "bind" with
      | .array bindings =>
        bindings.attach.all (fun binding => isReadSelect (binding.1.property "statement")) &&
          isReadSelect (JsObject.read fields "in")
      | _ => false
    else false
  | _ => false
termination_by statement => sizeOf statement
decreasing_by
  · have inner := JsValue.sizeOf_property_le binding.1 "statement"
    have among := List.sizeOf_lt_of_mem binding.2
    have outer := JsValue.sizeOf_read_lt fields "bind"
    rw [_bound, JsValue.array.sizeOf_spec] at outer
    omega
  · exact JsValue.sizeOf_read_lt fields "in"

inductive ReadKind where
  | select
  | show
deriving DecidableEq

/-- The answer of the classifier; a refusal has the code `SQL_READ_ONLY_REQUIRED`. -/
inductive ReadClassification where
  | allowed (kind : ReadKind)
  | readOnlyRequired
deriving DecidableEq

/-- `classifyReadOnlySql`, with the parser. -/
def classifyReadOnlySql [JsRuntime μ] {ε : Type} (parse : String → Except ε (List (JsValue μ))) (sql : String) :
    ReadClassification :=
  match parse sql with
  | .ok [statement] =>
    if isReadSelect statement then .allowed .select
    else if isOfType statement "show" then .allowed .show
    else .readOnlyRequired
  | .ok _ => .readOnlyRequired
  | .error _ => .readOnlyRequired

/-- `isMutationKind(statement.type)`. -/
def modifiesData (statement : JsValue μ) : Bool :=
  isOfType statement "insert" || isOfType statement "update" || isOfType statement "delete"

/-- A `SELECT` with a locking clause. -/
def locksRows [JsRuntime μ] (statement : JsValue μ) : Bool :=
  isOfType statement "select" && (statement.property "for").truthy

/-- A node neither changes rows nor locks them. -/
def OnlyReads [JsRuntime μ] (node : JsValue μ) : Prop := modifiesData node = false ∧ locksRows node = false

/-- The nodes of a statement that the classifier does not look at: those of a `SELECT` outside its
locking clause, and those of a `WITH` outside the statements that it binds and the one it ends with. -/
inductive Unread : JsValue μ → JsValue μ → Prop
  | select {fields : JsObject μ} {name : String} {node : JsValue μ}
      (type : isOfType (.object fields) "select" = true) (other : name ≠ "for")
      (inside : (JsObject.read fields name).Holds node) : Unread (.object fields) node
  | within {fields : JsObject μ} {name : String} {node : JsValue μ}
      (type : isOfType (.object fields) "with" = true) (other : name ≠ "bind" ∧ name ≠ "in")
      (inside : (JsObject.read fields name).Holds node) : Unread (.object fields) node
  | binding {fields : JsObject μ} {bindings : List (JsValue μ)} {binding : JsValue μ}
      (type : isOfType (.object fields) "with" = true)
      (bound : JsObject.read fields "bind" = .array bindings) (member : binding ∈ bindings) :
      Unread (.object fields) binding
  | named {fields : JsObject μ} {bindings : List (JsValue μ)} {binding node : JsValue μ} {name : String}
      (type : isOfType (.object fields) "with" = true)
      (bound : JsObject.read fields "bind" = .array bindings) (member : binding ∈ bindings)
      (other : name ≠ "statement") (inside : (binding.property name).Holds node) :
      Unread (.object fields) node
  | bound {fields : JsObject μ} {bindings : List (JsValue μ)} {binding node : JsValue μ}
      (type : isOfType (.object fields) "with" = true)
      (bound : JsObject.read fields "bind" = .array bindings) (member : binding ∈ bindings)
      (inside : Unread (binding.property "statement") node) : Unread (.object fields) node
  | body {fields : JsObject μ} {node : JsValue μ} (type : isOfType (.object fields) "with" = true)
      (inside : Unread (JsObject.read fields "in") node) : Unread (.object fields) node

/-- PostgreSQL's `DECLARE … CURSOR FOR` takes a `SELECT` or `VALUES` and unions of these, also after
`WITH`. -/
inductive CursorQuery : JsValue μ → Prop
  | plain {statement : JsValue μ} {type : String}
      (query : type ∈ ["select", "values", "union", "union all"])
      (isOf : isOfType statement type = true) : CursorQuery statement
  | within {statement : JsValue μ} {type : String} (query : type ∈ ["with", "with recursive"])
      (isOf : isOfType statement type = true) (body : CursorQuery (statement.property "in")) :
      CursorQuery statement

/-! ## What a node is -/

/-- A value has one type. -/
theorem isOfType_other {value : JsValue μ} {type other : String} (isOf : isOfType value type)
    (differs : type ≠ other) : isOfType value other = false := by
  unfold isOfType at isOf ⊢
  split
  · next text property =>
    rw [property] at isOf
    simp only [decide_eq_true_eq] at isOf
    rw [isOf]
    exact decide_eq_false differs
  · rfl

section Nodes

variable [JsRuntime μ] {value : JsValue μ}

theorem onlyReads_of_other {type : String} (isOf : isOfType value type)
    (differs : type ∉ ["insert", "update", "delete", "select"]) : OnlyReads value := by
  simp only [List.mem_cons, List.not_mem_nil, or_false, not_or] at differs
  obtain ⟨insert, update, delete, select⟩ := differs
  constructor
  · rw [modifiesData, isOfType_other isOf insert, isOfType_other isOf update,
      isOfType_other isOf delete]
    rfl
  · rw [locksRows, isOfType_other isOf select]
    rfl

/-- A value without properties is no statement. -/
theorem onlyReads_of_bare (bare : ∀ name, value.property name = .undefined) : OnlyReads value := by
  have untyped (type : String) : isOfType value type = false := by
    rw [isOfType, bare]
  constructor
  · rw [modifiesData, untyped, untyped, untyped]
    rfl
  · rw [locksRows, untyped]
    rfl

theorem property_of_falsy (falsy : value.truthy = false) (name : String) :
    value.property name = .undefined := by
  cases value with
  | object fields => cases falsy
  | _ => rfl

end Nodes

/-! ## The nodes that are not looked at -/

variable {statement : JsValue μ}

/-- They are nodes of the statement, unless they are nothing. -/
theorem Unread.held {node : JsValue μ} (unread : Unread statement node) :
    statement.Holds node ∨ node = .undefined := by
  have through {fields : JsObject μ} {name : String} {node : JsValue μ}
      (inner : (JsObject.read fields name).Holds node ∨ node = .undefined) :
      (JsValue.object fields).Holds node ∨ node = .undefined := inner.imp_left (.property name)
  have among {fields : JsObject μ} {bindings : List (JsValue μ)} {binding node : JsValue μ}
      {name : String} (bound : JsObject.read fields "bind" = .array bindings)
      (member : binding ∈ bindings) (inner : (binding.property name).Holds node ∨ node = .undefined) :
      (JsValue.object fields).Holds node ∨ node = .undefined := by
    rcases inner with held | nothing
    · apply @through _ "bind"
      rw [bound]
      rcases JsValue.holds_property binding name with own | nothing
      · exact .inl (.item member (own.trans held))
      · rw [nothing] at held
        cases held
        exact .inr rfl
    · exact .inr nothing
  induction unread with
  | select type other inside => exact through (.inl inside)
  | within type other inside => exact through (.inl inside)
  | binding type bound member =>
    apply @through _ "bind"
    rw [bound]
    exact .inl (.item member (.here _))
  | named type bound member other inside => exact among bound member (.inl inside)
  | bound type bound member inside ih => exact among bound member ih
  | body type inside ih => exact through ih

/-- A cursor takes no `SHOW`. -/
theorem not_cursorQuery_show (shows : isOfType statement "show") : ¬CursorQuery statement := by
  intro query
  cases query with
  | @plain _ type query isOf =>
    have differs : "show" ≠ type := by
      rintro rfl
      exact absurd query (by decide)
    rw [isOfType_other shows differs] at isOf
    cases isOf
  | @within _ type query isOf =>
    have differs : "show" ≠ type := by
      rintro rfl
      exact absurd query (by decide)
    rw [isOfType_other shows differs] at isOf
    cases isOf

section Classifier

variable [JsRuntime μ] {fields : JsObject μ}

theorem isReadSelect_select (select : isOfType (.object fields) "select") :
    isReadSelect (.object fields) ↔ (JsObject.read fields "for").truthy = false := by
  rw [isReadSelect, if_pos select, Bool.not_eq_true']

theorem isReadSelect_with (within : isOfType (.object fields) "with") :
    isReadSelect (.object fields) ↔
      ∃ bindings, JsObject.read fields "bind" = .array bindings ∧
        (∀ binding ∈ bindings, isReadSelect (binding.property "statement")) ∧
        isReadSelect (JsObject.read fields "in") := by
  have notSelect : ¬isOfType (.object fields) "select" := by
    rw [isOfType_other within (by decide)]
    decide
  rw [isReadSelect, if_neg notSelect, if_pos within]
  split
  · next bindings bound =>
    simp [bound]
  · next other =>
    constructor
    · nofun
    · rintro ⟨bindings, bound, -⟩
      exact absurd bound (other bindings)

/-- What the classifier accepts is a `SELECT` or a `WITH`. -/
theorem cases_of_isReadSelect (reads : isReadSelect statement) :
    ∃ fields, statement = .object fields ∧ (isOfType (.object fields) "select" ∨
      isOfType (.object fields) "with") := by
  cases statement with
  | object fields =>
    refine ⟨fields, rfl, ?_⟩
    by_contra other
    rw [not_or] at other
    rw [isReadSelect, if_neg other.1, if_neg other.2] at reads
    cases reads
  | _ => simp [isReadSelect] at reads

/-- The nodes that the classifier looks at only read, so an accepted statement reads as far as the
others do. -/
theorem holds_reads (reads : isReadSelect statement)
    (others : ∀ node, Unread statement node → OnlyReads node) :
    ∀ node, statement.Holds node → OnlyReads node := by
  induction statement using isReadSelect.induct with
  | case1 fields select =>
    intro node held
    have unlocked := (isReadSelect_select select).mp reads
    cases held with
    | here =>
      constructor
      · rw [modifiesData, isOfType_other select (by decide), isOfType_other select (by decide),
          isOfType_other select (by decide)]
        rfl
      · have property : (JsValue.object fields).property "for" = JsObject.read fields "for" := rfl
        rw [locksRows, select, property, unlocked]
        rfl
    | property name inside =>
      by_cases own : name = "for"
      · rw [own] at inside
        rw [JsValue.eq_of_holds_falsy unlocked inside]
        exact onlyReads_of_bare (property_of_falsy unlocked)
      · exact others node (.select select own inside)
  | case2 fields _ within bindings bound each body =>
    intro node held
    obtain ⟨list, same, accepted, last⟩ := (isReadSelect_with within).mp reads
    rw [bound] at same
    cases same
    cases held with
    | here => exact onlyReads_of_other within (by decide)
    | property name inside =>
      by_cases listed : name = "bind"
      · rw [listed, bound] at inside
        cases inside with
        | here => exact onlyReads_of_bare fun _ => rfl
        | item member inside =>
          rename_i binding
          -- A binding is an object, for its statement is accepted.
          have statement := accepted binding member
          cases inside with
          | here => exact others _ (.binding within bound member)
          | property name inside =>
            by_cases own : name = "statement"
            · rw [own] at inside
              exact each ⟨_, member⟩ statement
                (fun node unread => others node (.bound within bound member unread)) node inside
            · exact others node (.named within bound member own inside)
          | item => simp [JsValue.property, isReadSelect] at statement
      · by_cases ends : name = "in"
        · rw [ends] at inside
          exact body last (fun node unread => others node (.body within unread)) node inside
        · exact others node (.within within ⟨listed, ends⟩ inside)
  | case3 fields _ within unbound =>
    obtain ⟨bindings, bound, -⟩ := (isReadSelect_with within).mp reads
    exact absurd bound (unbound bindings)
  | case4 fields notSelect notWith =>
    rw [isReadSelect, if_neg notSelect, if_neg notWith] at reads
    cases reads
  | case5 value bare =>
    obtain ⟨fields, rfl, -⟩ := cases_of_isReadSelect reads
    exact absurd rfl (bare fields)

/-- An accepted statement only reads exactly where its nodes that are not looked at do. -/
theorem reads_iff_unread (reads : isReadSelect statement) :
    (∀ node, statement.Holds node → OnlyReads node) ↔
      ∀ node, Unread statement node → OnlyReads node := by
  constructor
  · intro whole node unread
    rcases unread.held with held | nothing
    · exact whole node held
    · rw [nothing]
      exact onlyReads_of_bare fun _ => rfl
  · exact holds_reads reads

/-- A cursor takes every statement that is accepted as a `SELECT`. -/
theorem cursorQuery_of_isReadSelect (reads : isReadSelect statement) : CursorQuery statement := by
  induction statement using isReadSelect.induct with
  | case1 fields select => exact .plain (by decide) select
  | case2 fields _ within bindings bound each body =>
    obtain ⟨_, _, _, last⟩ := (isReadSelect_with within).mp reads
    exact .within (by decide) within (body last)
  | case3 fields _ within unbound =>
    obtain ⟨bindings, bound, -⟩ := (isReadSelect_with within).mp reads
    exact absurd bound (unbound bindings)
  | case4 fields notSelect notWith =>
    rw [isReadSelect, if_neg notSelect, if_neg notWith] at reads
    cases reads
  | case5 value bare =>
    obtain ⟨fields, rfl, -⟩ := cases_of_isReadSelect reads
    exact absurd rfl (bare fields)

/-! ## The answers -/

variable {ε : Type} {parse : String → Except ε (List (JsValue μ))} {sql : String}
  {statement : JsValue μ}

theorem classify_select (parsed : parse sql = .ok [statement]) (reads : isReadSelect statement) :
    classifyReadOnlySql parse sql = .allowed .select := by
  rw [classifyReadOnlySql, parsed]
  exact if_pos reads

theorem classify_show (parsed : parse sql = .ok [statement]) (shows : isOfType statement "show") :
    classifyReadOnlySql parse sql = .allowed .show := by
  have other : ¬isReadSelect statement := by
    intro reads
    obtain ⟨fields, rfl, select | within⟩ := cases_of_isReadSelect reads
    · rw [isOfType_other select (by decide)] at shows
      cases shows
    · rw [isOfType_other within (by decide)] at shows
      cases shows
  rw [classifyReadOnlySql, parsed]
  exact (if_neg other).trans (if_pos shows)

/-- What is allowed is one statement that is accepted as a `SELECT`, or `SHOW`. -/
theorem statement_of_allowed {kind : ReadKind}
    (allowed : classifyReadOnlySql parse sql = .allowed kind) :
    ∃ statement, parse sql = .ok [statement] ∧
      (isReadSelect statement ∨ isOfType statement "show") := by
  unfold classifyReadOnlySql at allowed
  split at allowed
  · next statement parsed =>
    refine ⟨statement, parsed, ?_⟩
    by_contra neither
    rw [not_or] at neither
    rw [if_neg neither.1, if_neg neither.2] at allowed
    cases allowed
  · cases allowed
  · cases allowed

end Classifier

end NancyMan.SqlWorker
