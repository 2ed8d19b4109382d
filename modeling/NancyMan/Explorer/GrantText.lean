import NancyMan.Explorer.GrantScript
import NancyMan.Lib.SqlPrivileges

/-!
# How the grants script is read

A session reads the script as a transaction of the statements it was written for: quoting keeps
every identifier whole, whatever symbols it has, and the comments end with their lines.
-/
namespace NancyMan.Explorer.Grants

open SqlText Fallible
open List (cons_ne_nil flatten_cons map_cons rel_append)

/-! ## Pieces of a line -/

/-- A quoted identifier is the name it was written for. -/
structure Quoted (value quoted : String) : Prop where
  text : quoted.toList = delimited value.toList
  filled : value.toList ≠ []
  noNul : '\x00' ∉ value.toList

/-- What `quoteIdentifier` does not refuse is quoted. -/
theorem quoteIdentifier_ok (accepted : quoteIdentifier value = .ok quoted) :
    Quoted value quoted := by
  unfold quoteIdentifier at accepted
  split at accepted
  · cases accepted
  · rename_i fits
    have filled : value ≠ "" := fun empty => fits (.inl empty)
    have noNul : '\x00' ∉ value.toList := fun member => fits (.inr member)
    have same := Except.ok.inj accepted
    refine ⟨?_, fun empty => filled (String.toList_eq_nil_iff.mp empty), noNul⟩
    rw [← same]
    simp [delimited]

variable {value quoted : String}

theorem Quoted.scan (quotes : Quoted value quoted)
    (short : Utf8.byteLength value.toList ≤ maxNameBytes) (symbol : Char) (ends : symbol ≠ '"')
    {following : List Token} {place : Place} (entered : enter symbol = some (following, place)) :
    scan .between (quoted.toList ++ [symbol]) = some (.name value :: following, place) := by
  rw [quotes.text, scan_delimited quotes.filled quotes.noNul ends entered, nameOf_eq_self short]

def ReadsLine (line : String) (tokens : List Token) : Prop :=
  scan .between (line.toList ++ ['\n']) = some (tokens, .between)

variable {line : String} {columns columnsQuoted : List String} {schema schemaQuoted : String}

theorem readsLine_of_scan {tokens : List Token}
    (read : scan .between line.toList = some (tokens, .between)) : ReadsLine line tokens := by
  have last : scan .between ['\n'] = some ([], .between) := by rfl
  have whole := scan_append read last
  rwa [List.append_nil] at whole

/-- A comment has no tokens. -/
theorem scan_comment {text : List Char} (plain : ∀ symbol ∈ text, symbol ≠ '\n' ∧ symbol ≠ '\r') :
    scan .comment text = some ([], .comment) := by
  induction text with
  | nil => rfl
  | cons symbol rest ih =>
    have later := ih fun other member => plain other (.tail _ member)
    obtain ⟨newline, carriage⟩ := plain symbol (.head _)
    simp [SqlText.scan, step, newline, carriage, later]

theorem plain_of_all {text : String}
    (checked : text.toList.all (fun symbol => symbol != '\n' && symbol != '\r')) :
    ∀ symbol ∈ text.toList, symbol ≠ '\n' ∧ symbol ≠ '\r' := by
  simpa only [List.all_eq_true, Bool.and_eq_true, bne_iff_ne] using checked

/-- A comment line has no tokens. -/
theorem readsLine_comment (text : String) (starts : line.toList = '-' :: '-' :: text.toList)
    (plain : ∀ symbol ∈ text.toList, symbol ≠ '\n' ∧ symbol ≠ '\r') : ReadsLine line [] := by
  have opened : scan .between ['-', '-'] = some ([], .comment) := by rfl
  have ended : scan .comment ['\n'] = some ([], .between) := by rfl
  have read := scan_append (scan_append opened (scan_comment plain)) ended
  unfold ReadsLine
  rw [starts]
  exact read

/-- Lines, each with a line break, are read line by line. -/
theorem scan_lines {lines : List String} {read : List (List Token)}
    (each : List.Forall₂ ReadsLine lines read) :
    scan .between (Lines.terminated '\n' (lines.map String.toList)) =
      some (read.flatten, .between) := by
  induction each with
  | nil => rfl
  | @cons line tokens lines read here _ ih =>
    have both := scan_append here ih
    rw [map_cons, Lines.terminated_cons, flatten_cons]
    rw [List.append_assoc, List.singleton_append] at both
    exact both

/-- Lines joined by line breaks, of which the last is empty. -/
theorem toList_joined (lines : List String) :
    ("\n".intercalate (lines ++ [""])).toList =
      Lines.terminated '\n' (lines.map String.toList) := by
  cases lines with
  | nil => rfl
  | cons line rest =>
    have filled : (line :: rest).map String.toList ≠ [] := cons_ne_nil _ _
    have joined : ("\n".intercalate (line :: rest)).toList =
        ['\n'].intercalate ((line :: rest).map String.toList) := String.toList_intercalate
    rw [← Lines.intercalate_append_stop '\n' filled, ← joined,
      String.intercalate_append_of_ne_nil (cons_ne_nil _ _) (cons_ne_nil _ _)]
    simp

/-! ## The lines of the script -/

def IsShort (name : String) : Prop := Utf8.byteLength name.toList ≤ maxNameBytes

variable {role roleQuoted : String}

/-- The line that revokes in a schema. -/
theorem renderRevoke_reads {schema : SnapshotSchema} (roles : Quoted role roleQuoted)
    (roleShort : IsShort role) (short : IsShort schema.name)
    (rendered : renderRevoke roleQuoted schema = .ok line) :
    ReadsLine line
      (statementTokens (.change (.revokeAllOnTables schema.name role)) ++ [.mark ';']) := by
  obtain ⟨schemaQuoted, quotes, ended⟩ := bind_ok rendered
  have named := (quoteIdentifier_ok quotes).scan short ' ' (by decide) rfl
  have granted := roles.scan roleShort ';' (by decide) rfl
  have head : scan .between "REVOKE ALL PRIVILEGES ON ALL TABLES IN SCHEMA ".toList =
      some ([.word "REVOKE", .word "ALL", .word "PRIVILEGES", .word "ON", .word "ALL",
        .word "TABLES", .word "IN", .word "SCHEMA"], .between) := by rfl
  have from_ : scan .between "FROM ".toList = some ([.word "FROM"], .between) := by rfl
  have whole := scan_append (scan_append head named) (scan_append from_ granted)
  apply readsLine_of_scan
  rw [← Except.ok.inj ended]
  exact Eq.trans (congrArg (scan .between) (by simp)) whole

/-- The columns of a list, up to its closing bracket. -/
theorem scan_columnList (quotes : List.Forall₂ Quoted columns columnsQuoted) (filled : columns ≠ [])
    (short : ∀ column ∈ columns, IsShort column) :
    scan .between ((", ".intercalate columnsQuoted).toList ++ [')']) =
      some (listed columns ++ [.mark ')'], .between) := by
  induction quotes with
  | nil => exact absurd rfl filled
  | @cons column quoted columns columnsQuoted here others ih =>
    have shortFirst := short column (.head _)
    cases others with
    | nil =>
      have named := here.scan shortFirst ')' (by decide) rfl
      exact named
    | @cons next nextQuoted columns columnsQuoted following others =>
      have named := here.scan shortFirst ',' (by decide) rfl
      have space : scan .between [' '] = some ([], .between) := by rfl
      have rest := ih (cons_ne_nil _ _) fun other member => short other (.tail _ member)
      have whole := scan_append (scan_append named space) rest
      exact Eq.trans (congrArg (scan .between) (by simp)) whole

/-- The line that grants the columns of a relation. -/
theorem grantSelect_reads {relation relationQuoted : String} (roles : Quoted role roleQuoted)
    (roleShort : IsShort role) (schemas : Quoted schema schemaQuoted) (schemaShort : IsShort schema)
    (relations : Quoted relation relationQuoted) (relationShort : IsShort relation)
    (quotes : List.Forall₂ Quoted columns columnsQuoted) (filled : columns ≠ [])
    (short : ∀ column ∈ columns, IsShort column) :
    ReadsLine ("GRANT SELECT (" ++ ", ".intercalate columnsQuoted ++ ") ON " ++ schemaQuoted ++ "." ++
        relationQuoted ++ " TO " ++ roleQuoted ++ ";")
      (statementTokens (.change (.grantSelect columns schema relation role)) ++ [.mark ';']) := by
  have head : scan .between "GRANT SELECT (".toList =
      some ([.word "GRANT", .word "SELECT", .mark '('], .between) := by rfl
  have middle : scan .between " ON ".toList = some ([.word "ON"], .between) := by rfl
  have towards : scan .between "TO ".toList = some ([.word "TO"], .between) := by rfl
  have list := scan_columnList quotes filled short
  have schemaRead := schemas.scan schemaShort '.' (by decide) rfl
  have relationRead := relations.scan relationShort ' ' (by decide) rfl
  have roleRead := roles.scan roleShort ';' (by decide) rfl
  have front := scan_append (scan_append (scan_append head list) middle) schemaRead
  have whole := scan_append front (scan_append relationRead (scan_append towards roleRead))
  apply readsLine_of_scan
  refine Eq.trans (congrArg (scan .between) (by simp)) (whole.trans ?_)
  simp [statementTokens, commandTokens]

/-- The line that lets the role use a schema. -/
theorem grantUsage_reads (roles : Quoted role roleQuoted) (roleShort : IsShort role)
    (schemas : Quoted schema schemaQuoted) (schemaShort : IsShort schema) :
    ReadsLine ("GRANT USAGE ON SCHEMA " ++ schemaQuoted ++ " TO " ++ roleQuoted ++ ";")
      (statementTokens (.change (.grantUsage schema role)) ++ [.mark ';']) := by
  have head : scan .between "GRANT USAGE ON SCHEMA ".toList =
      some ([.word "GRANT", .word "USAGE", .word "ON", .word "SCHEMA"], .between) := by rfl
  have towards : scan .between "TO ".toList = some ([.word "TO"], .between) := by rfl
  have schemaRead := schemas.scan schemaShort ' ' (by decide) rfl
  have roleRead := roles.scan roleShort ';' (by decide) rfl
  have whole := scan_append (scan_append head schemaRead) (scan_append towards roleRead)
  apply readsLine_of_scan
  exact Eq.trans (congrArg (scan .between) (by simp)) whole

/-! ## The statements of the script -/

section

variable (toLowerCase : List Char → List Char)

/-- The grants of a relation. -/
def relationGrants (targetId : DatabaseTargetId) (role schema : String)
    (relation : SnapshotRelation) : List GrantCommand :=
  if !relation.dataAvailable || relation.isForeign then []
  else
    let safe := safeColumns toLowerCase targetId schema relation
    if safe = [] then [] else [.grantSelect safe schema relation.name role]

/-- The grants of a schema. -/
def schemaGrants (targetId : DatabaseTargetId) (role : String) (schema : SnapshotSchema) :
    List GrantCommand :=
  .grantUsage schema.name role ::
    schema.relations.flatMap (relationGrants toLowerCase targetId role schema.name)

/-- What the script is written to do. -/
def scriptCommands (snapshot : StructuralSnapshot) (role : String) : List GrantCommand :=
  snapshot.schemas.map (fun schema => .revokeAllOnTables schema.name role) ++
    snapshot.schemas.flatMap (schemaGrants toLowerCase snapshot.targetId role)

/-- The identifiers that the script names are short. -/
structure AllShort (snapshot : StructuralSnapshot) : Prop where
  schema : ∀ schema ∈ snapshot.schemas, IsShort schema.name
  relation : ∀ schema ∈ snapshot.schemas, ∀ relation ∈ schema.relations,
    relation.dataAvailable = true → relation.isForeign = false →
    safeColumns toLowerCase snapshot.targetId schema.name relation ≠ [] →
    IsShort relation.name ∧
      ∀ column ∈ safeColumns toLowerCase snapshot.targetId schema.name relation, IsShort column

def lineTokens (command : GrantCommand) : List Token :=
  statementTokens (.change command) ++ [.mark ';']

variable {toLowerCase : List Char → List Char} {targetId : DatabaseTargetId} {lines : List String}
  {snapshot : StructuralSnapshot}

/-- The lines of a relation are its grants. -/
theorem renderRelation_reads {schema schemaQuoted : String} {relation : SnapshotRelation}
    (roles : Quoted role roleQuoted) (roleShort : IsShort role)
    (schemas : Quoted schema schemaQuoted) (schemaShort : IsShort schema)
    (short : relation.dataAvailable → relation.isForeign = false →
      safeColumns toLowerCase targetId schema relation ≠ [] → IsShort relation.name ∧
        ∀ column ∈ safeColumns toLowerCase targetId schema relation, IsShort column)
    (rendered : renderRelation toLowerCase targetId roleQuoted schema schemaQuoted relation =
      .ok lines) :
    List.Forall₂ ReadsLine lines
      ((relationGrants toLowerCase targetId role schema relation).map lineTokens) := by
  unfold renderRelation at rendered
  unfold relationGrants
  by_cases skipped : (!relation.dataAvailable || relation.isForeign)
  · rw [if_pos skipped] at rendered ⊢
    rw [← Except.ok.inj rendered]
    exact .nil
  · rw [if_neg skipped] at rendered ⊢
    by_cases nothing : safeColumns toLowerCase targetId schema relation = []
    · rw [if_pos nothing] at rendered ⊢
      rw [← Except.ok.inj rendered]
      exact .nil
    · rw [if_neg nothing] at rendered ⊢
      obtain ⟨available, own⟩ : relation.dataAvailable = true ∧ relation.isForeign = false := by
        simpa using skipped
      obtain ⟨relationShort, columnsShort⟩ := short available own nothing
      obtain ⟨relationQuoted, relations, rendered⟩ := bind_ok rendered
      obtain ⟨columnsQuoted, columns, ended⟩ := bind_ok rendered
      have quotes := (forall₂_of_mapM columns).imp fun _ _ => quoteIdentifier_ok
      rw [← Except.ok.inj ended]
      exact .cons (grantSelect_reads roles roleShort schemas schemaShort
        (quoteIdentifier_ok relations) relationShort quotes nothing columnsShort) .nil

/-- Lines of several items are their statements, in order. -/
theorem forall₂_flatten {α : Type} {commands : α → List GrantCommand} {items : List α}
    {lines : List (List String)} (each : List.Forall₂
      (fun item own => List.Forall₂ ReadsLine own ((commands item).map lineTokens)) items lines) :
    List.Forall₂ ReadsLine lines.flatten ((items.flatMap commands).map lineTokens) := by
  induction each with
  | nil => exact .nil
  | cons here _ ih =>
    rw [flatten_cons, List.flatMap_cons, List.map_append]
    exact rel_append here ih

/-- The lines of a schema are its grants. -/
theorem renderSchema_reads {schema : SnapshotSchema} (roles : Quoted role roleQuoted)
    (roleShort : IsShort role) (short : AllShort toLowerCase snapshot)
    (member : schema ∈ snapshot.schemas)
    (rendered : renderSchema toLowerCase snapshot.targetId roleQuoted schema = .ok lines) :
    List.Forall₂ ReadsLine lines
      ((schemaGrants toLowerCase snapshot.targetId role schema).map lineTokens) := by
  obtain ⟨schemaQuoted, quotes, rendered⟩ := bind_ok rendered
  obtain ⟨relations, mapped, ended⟩ := bind_ok rendered
  have schemas := quoteIdentifier_ok quotes
  have schemaShort := short.schema schema member
  have all := (List.forall₂_and_left _ _).mpr
    ⟨short.relation schema member, forall₂_of_mapM mapped⟩
  have each := all.imp fun relation own here =>
    renderRelation_reads roles roleShort schemas schemaShort here.1 here.2
  rw [← Except.ok.inj ended]
  exact .cons (grantUsage_reads roles roleShort schemas schemaShort) (forall₂_flatten each)

/-- A checksum has no line break. -/
theorem checksum_plain {checksum : String} (valid : isChecksum checksum) :
    ∀ symbol ∈ checksum.toList, symbol ≠ '\n' ∧ symbol ≠ '\r' := by
  intro symbol member
  have digits := (Bool.and_eq_true_iff.mp valid).2
  have digit : isChecksumDigit symbol := List.all_eq_true.mp digits symbol member
  constructor
  · rintro rfl
    exact absurd digit (by decide)
  · rintro rfl
    exact absurd digit (by decide)

theorem targetId_plain (targetId : DatabaseTargetId) :
    ∀ symbol ∈ targetId.text.toList, symbol ≠ '\n' ∧ symbol ≠ '\r' := by
  apply plain_of_all
  cases targetId <;> rfl

/-- The tokens of statements are theirs with their semicolons. -/
theorem flatten_lineTokens (commands : List GrantCommand) :
    (commands.map lineTokens).flatten =
      Lines.terminated (.mark ';') ((commands.map SqlStatement.change).map statementTokens) := by
  induction commands with
  | nil => rfl
  | cons command rest ih =>
    simp only [map_cons, flatten_cons, Lines.terminated_cons, ih, lineTokens]
    rw [List.append_assoc, List.singleton_append]

/-- What the script grants has columns. -/
theorem sayable_scriptCommands (snapshot : StructuralSnapshot) :
    ∀ said ∈ inTransaction (scriptCommands toLowerCase snapshot role), Sayable said := by
  intro said member
  simp only [inTransaction, scriptCommands, schemaGrants, List.mem_cons, List.mem_append,
    List.mem_map, List.mem_flatMap, List.not_mem_nil, or_false] at member
  rcases member with rfl | ⟨command, held, rfl⟩ | rfl
  · trivial
  · rcases held with ⟨schema, -, rfl⟩ | ⟨schema, -, rfl | ⟨relation, -, held⟩⟩
    · trivial
    · trivial
    · unfold relationGrants at held
      split at held
      · cases held
      · dsimp only at held
        split at held
        · cases held
        · rename_i filled
          obtain rfl := List.mem_singleton.mp held
          exact filled
  · trivial

/-- A session reads the script of a snapshot as one transaction of its statements. -/
theorem renderSnapshot_statements {script : String} (valid : isChecksum snapshot.checksum)
    (short : AllShort toLowerCase snapshot)
    (rendered : renderSnapshot toLowerCase snapshot browserRole = .ok script) :
    statements script =
      some ((inTransaction (scriptCommands toLowerCase snapshot browserRole)).map some) := by
  obtain ⟨roleQuoted, quotes, rendered⟩ := bind_ok rendered
  obtain ⟨revokes, revoked, rendered⟩ := bind_ok rendered
  obtain ⟨grants, granted, ended⟩ := bind_ok rendered
  have roles := quoteIdentifier_ok quotes
  have roleShort : IsShort browserRole := by
    unfold IsShort
    decide +kernel
  have roleText : roleQuoted = "\"ops_database_browser\"" := (Except.ok.inj quotes).symm
  -- The two comment lines have no tokens.
  have first : ReadsLine ("-- Database Explorer grants for role " ++ roleQuoted) [] := by
    rw [roleText]
    refine readsLine_comment
      " Database Explorer grants for role \"ops_database_browser\"" rfl (plain_of_all ?_)
    decide +kernel
  have second : ReadsLine ("-- Target: " ++ snapshot.targetId.text ++ " (Checksum: " ++
      snapshot.checksum ++ ")") [] := by
    refine readsLine_comment (" Target: " ++ snapshot.targetId.text ++ " (Checksum: " ++
      snapshot.checksum ++ ")") ?_ ?_
    · simp only [String.toList_append]
      rfl
    · intro symbol member
      simp only [String.toList_append, List.mem_append] at member
      rcases member with (((label | target) | open_) | checksum) | closed
      · exact plain_of_all rfl symbol label
      · exact targetId_plain snapshot.targetId symbol target
      · exact plain_of_all rfl symbol open_
      · exact checksum_plain valid symbol checksum
      · exact plain_of_all rfl symbol closed
  have opened : ReadsLine "BEGIN;" [.word "BEGIN", .mark ';'] := readsLine_of_scan rfl
  have closed : ReadsLine "COMMIT;" [.word "COMMIT", .mark ';'] := readsLine_of_scan rfl
  have revokeLines : List.Forall₂ ReadsLine revokes
      ((snapshot.schemas.map fun schema => GrantCommand.revokeAllOnTables schema.name browserRole).map
        lineTokens) := by
    rw [List.map_map]
    refine List.forall₂_map_right_iff.mpr (List.Forall₂.flip ?_)
    have all := (List.forall₂_and_left _ _).mpr ⟨short.schema, forall₂_of_mapM revoked⟩
    exact all.imp fun schema line here => renderRevoke_reads roles roleShort here.1 here.2
  have grantLines : List.Forall₂ ReadsLine grants.flatten
      ((snapshot.schemas.flatMap (schemaGrants toLowerCase snapshot.targetId browserRole)).map
        lineTokens) := by
    have members : ∀ schema ∈ snapshot.schemas, schema ∈ snapshot.schemas := fun _ member => member
    have all := (List.forall₂_and_left _ _).mpr ⟨members, forall₂_of_mapM granted⟩
    exact forall₂_flatten (all.imp fun schema own here =>
      renderSchema_reads roles roleShort short here.1 here.2)
  have lines := scan_lines (.cons first (.cons second (.cons opened
    (rel_append (rel_append revokeLines grantLines) (.cons closed .nil)))))
  have shape : script = "\n".intercalate (("-- Database Explorer grants for role " ++ roleQuoted) ::
      ("-- Target: " ++ snapshot.targetId.text ++ " (Checksum: " ++ snapshot.checksum ++ ")") ::
      "BEGIN;" :: (revokes ++ grants.flatten ++ ["COMMIT;"]) ++ [""]) := by
    rw [← Except.ok.inj ended]
    simp
  have read : tokens script = some (Lines.terminated (.mark ';')
      ((inTransaction (scriptCommands toLowerCase snapshot browserRole)).map statementTokens)) := by
    unfold tokens
    rw [shape, toList_joined, lines]
    simp only [flatten_cons, List.flatten_append, List.flatten_nil, flatten_lineTokens,
      List.nil_append, List.append_nil, finish, Option.map_some, inTransaction, scriptCommands,
      map_cons, List.map_append, List.map_nil, Lines.terminated_cons, Lines.terminated_append,
      Lines.terminated_nil, statementTokens]
    rfl
  exact statements_of_tokens (sayable_scriptCommands snapshot) read

end

end NancyMan.Explorer.Grants
