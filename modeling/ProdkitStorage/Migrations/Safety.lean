import Mathlib.Data.List.Infix
import ProdkitStorage.Migrations.Syntax
import ProdkitStorage.Python.Error

/-!
# Migration linter

`database/migration_safety.py`: the static checks of a revision.  `UpgradeScanner` walks the
body of `upgrade()` in the order of the text and keeps one set of the tables created so far.

`upper` is `str.upper`.
-/

namespace ProdkitStorage.Migrations

open Python

inductive MigrationSeverity where
  | warning
  | error
deriving DecidableEq

structure MigrationSafetyIssue where
  code : String
  severity : MigrationSeverity
  line : Nat
  message : String
deriving DecidableEq

/-- `MigrationSafetyReport`.  `waivers` is a set. -/
structure MigrationSafetyReport where
  path : String
  issues : List MigrationSafetyIssue
  waivers : List String

namespace MigrationSafetyReport

/-- `blocking_issues`. -/
def blockingIssues (report : MigrationSafetyReport) : List MigrationSafetyIssue :=
  report.issues.filter fun issue => issue.severity == .error && !report.waivers.contains issue.code

def safe (report : MigrationSafetyReport) : Bool := report.blockingIssues.isEmpty

end MigrationSafetyReport

/-! ## Reading a call -/

/-- `_op_method`. -/
def opMethod (call : Call) : Option String :=
  match call.func with
  | .attribute (.name id) attr => if id = "op" then some attr else none
  | _ => none

/-- `_call_method`. -/
def callMethod (call : Call) : Option String :=
  match call.func with
  | .attribute _ attr => some attr
  | .name id => some id
  | _ => none

/-- `_keyword_value`. -/
def keywordValue (call : Call) (name : String) : Option Expr :=
  (call.keywords.find? fun item => item.arg == some name).map Keyword.value

/-- The argument at a position, or under a keyword when there are not so many. -/
def argument (call : Call) (position : Nat) (keyword : String) : Option Expr :=
  match call.args[position]? with
  | some value => some value
  | none => keywordValue call keyword

/-- The text of a literal. -/
def stringOf : Option Expr → Option String
  | some (.constant (.str value)) => some value
  | _ => none

/-- `_string_argument`. -/
def stringArgument (call : Call) (position : Nat) (keyword : String) : Option String :=
  stringOf (argument call position keyword)

/-- The value of a literal `True` or `False`. -/
def boolOf : Option Expr → Option Bool
  | some (.constant (.bool value)) => some value
  | _ => none

/-- `_keyword_bool`. -/
def keywordBool (call : Call) (name : String) : Option Bool := boolOf (keywordValue call name)

/-- `_call_argument`. -/
def callArgument (call : Call) (position : Nat) (keyword : String) : Option Call :=
  match argument call position keyword with
  | some (.call value) => some value
  | _ => none

/-- `_is_autocommit_context`. -/
def isAutocommitContext : Expr → Bool
  | .call ⟨_, _, .attribute _ attr, _, _⟩ => attr == "autocommit_block"
  | _ => false

/-- `_statement_call`. -/
def statementCall : Stmt → Option Call
  | .expr (.call call) => some call
  | _ => none

/-- `a or b`, for texts. -/
def orText (a b : Option String) : Option String := if a.any (· ≠ "") then a else b

/-! ## The scanner -/

/-- `_DESTRUCTIVE_OPS`. -/
def destructiveOps : List String := ["drop_table", "drop_column", "drop_constraint", "drop_index"]

/-- `_UpgradeScanner`, with what it has found so far. -/
structure UpgradeScanner where
  createdTables : List String
  issues : List MigrationSafetyIssue

/-- `table and table in self.created_tables`. -/
def isCreated (createdTables : List String) (table : Option String) : Bool :=
  table.any fun name => name ≠ "" && createdTables.contains name

/-- `_issue`, with severity `ERROR`. -/
def errorAt (call : Call) (code message : String) : List MigrationSafetyIssue :=
  [⟨code, .error, call.place.line, message⟩]

/-- `_issue`, with severity `WARNING`. -/
def warningAt (call : Call) (code message : String) : List MigrationSafetyIssue :=
  [⟨code, .warning, call.place.line, message⟩]

/-- `_scan_call`, an operation of `_DESTRUCTIVE_OPS`. -/
def destructiveIssues (operation : String) (call : Call) : List MigrationSafetyIssue :=
  errorAt call "destructive-change"
    (s!"op.{operation}() is destructive in upgrade(); " ++
      "use expand/contract or an explicit waiver")

/-- `_scan_call`, `create_index`. -/
def indexIssues (createdTables : List String) (call : Call) (autocommit : Bool) :
    List MigrationSafetyIssue :=
  if isCreated createdTables (stringArgument call 1 "table_name") then []
  else if keywordBool call "postgresql_concurrently" ≠ some true then
    errorAt call "blocking-index"
      "index on an existing table must use postgresql_concurrently=True"
  else if !autocommit then
    errorAt call "concurrent-index-transaction"
      "CREATE INDEX CONCURRENTLY must run inside autocommit_block()"
  else []

/-- The table that a constraint is put on. -/
def constraintTable (operation : String) (call : Call) : Option String :=
  let table := stringArgument call 1 "table_name"
  if operation = "create_foreign_key" then orText (stringArgument call 1 "source_table") table
  else table

/-- `_scan_call`, `create_check_constraint` and `create_foreign_key`. -/
def constraintIssues (createdTables : List String) (operation : String) (call : Call) :
    List MigrationSafetyIssue :=
  if isCreated createdTables (constraintTable operation call) then []
  else if keywordBool call "postgresql_not_valid" ≠ some true then
    errorAt call "immediate-constraint-validation"
      "constraint on an existing table should be added NOT VALID and validated separately"
  else []

/-- `_scan_call`, `add_column`. -/
def columnIssues (createdTables : List String) (call : Call) : List MigrationSafetyIssue :=
  if isCreated createdTables (stringArgument call 0 "table_name") then []
  else
    match callArgument call 1 "column" with
    | none => []
    | some column =>
        if callMethod column = some "Column" ∧ keywordBool column "nullable" = some false ∧
            (keywordValue column "server_default").isNone then
          errorAt call "non-null-column-without-backfill"
            "non-null column on an existing table requires an expand/backfill/enforce sequence"
        else []

/-- `_scan_call`, `alter_column`. -/
def alterIssues (call : Call) : List MigrationSafetyIssue :=
  (if (keywordValue call "type_").isSome then
    errorAt call "column-type-rewrite"
      "column type changes may rewrite/lock the table; use a staged expand/backfill/switch plan"
  else []) ++
  if keywordBool call "nullable" = some false then
    warningAt call "set-not-null"
      "SET NOT NULL scans existing rows; validate data and budget the lock before deployment"
  else []

/-- `text` is in `whole`. -/
def containsText (whole text : String) : Bool := decide (text.toList <:+: whole.toList)

variable (upper : String → String)

/-- `_scan_call`, `execute`. -/
def executeIssues (call : Call) : List MigrationSafetyIssue :=
  let text := upper call.segment
  if containsText text "DROP TABLE" || containsText text "DROP COLUMN" ||
      containsText text "DROP TYPE" then
    errorAt call "destructive-sql" "raw SQL contains a destructive DROP operation"
  else
    warningAt call "raw-sql-review"
      "op.execute() requires manual lock/rewrite/idempotency review"

/-- The issues of `_scan_call`. -/
def callIssues (createdTables : List String) (operation : String) (call : Call)
    (autocommit : Bool) : List MigrationSafetyIssue :=
  if operation ∈ destructiveOps then destructiveIssues operation call
  else if operation = "create_index" then indexIssues createdTables call autocommit
  else if operation ∈ ["create_check_constraint", "create_foreign_key"] then
    constraintIssues createdTables operation call
  else if operation = "add_column" then columnIssues createdTables call
  else if operation = "alter_column" then alterIssues call
  else if operation = "execute" then executeIssues upper call
  else []

/-- The table that `create_table` creates, when its name is a literal. -/
def newTable (call : Call) : Option String :=
  (stringArgument call 0 "table_name").filter (· ≠ "")

/-- `_scan_call`. -/
def scanCall (call : Call) (autocommit : Bool) (s : UpgradeScanner) : UpgradeScanner :=
  match opMethod call with
  | none => s
  | some operation =>
      if operation = "create_table" then
        { s with createdTables := (newTable call).toList ++ s.createdTables }
      else
        { s with issues := s.issues ++ callIssues upper s.createdTables operation call autocommit }

mutual
/-- `scan_block`. -/
def scanBlock : List Stmt → Bool → UpgradeScanner → UpgradeScanner
  | [], _, s => s
  | statement :: statements, autocommit, s =>
      scanBlock statements autocommit (scanStatement statement autocommit s)

/-- One statement of `scan_block`. -/
def scanStatement : Stmt → Bool → UpgradeScanner → UpgradeScanner
  | .with_ false items body, autocommit, s =>
      scanBlock body (autocommit || items.any fun item => isAutocommitContext item.contextExpr) s
  | .if_ _ body orelse, autocommit, s => scanBlock orelse autocommit (scanBlock body autocommit s)
  | .for_ false _ _ body orelse, autocommit, s =>
      scanBlock orelse autocommit (scanBlock body autocommit s)
  | .while_ _ body orelse, autocommit, s =>
      scanBlock orelse autocommit (scanBlock body autocommit s)
  | .try_ false body handlers orelse finalbody, autocommit, s =>
      scanBlock finalbody autocommit (scanBlock orelse autocommit
        (scanHandlers handlers autocommit (scanBlock body autocommit s)))
  | statement, autocommit, s =>
      match statementCall statement with
      | some call => scanCall upper call autocommit s
      | none => s

/-- The handlers of a `try`. -/
def scanHandlers : List Handler → Bool → UpgradeScanner → UpgradeScanner
  | [], _, s => s
  | ⟨_, body⟩ :: handlers, autocommit, s =>
      scanHandlers handlers autocommit (scanBlock body autocommit s)
end

/-! ## Revisions -/

/-- The targets and the value of an assignment. -/
def assignment : Stmt → Option (List Expr × Option Expr)
  | .assign targets value => some (targets, some value)
  | .annAssign target _ value => some ([target], value)
  | _ => none

/-- The name `migration_safety_allow`. -/
def isWaiverTarget : Expr → Bool
  | .name id => id == "migration_safety_allow"
  | _ => false

/-- The codes that a value lists. -/
def waiverItems : Option Expr → Except PyError (List String)
  | some (.display elts) =>
      elts.mapM fun element =>
        match stringOf (some element) with
        | some code => .ok code
        | none => .error (.valueError "migration_safety_allow entries must be literal strings")
  | _ => .error (.valueError "migration_safety_allow must be a literal set/list/tuple of strings")

/-- `_extract_waivers`. -/
def extractWaivers : List Stmt → Except PyError (List String)
  | [] => .ok []
  | node :: tree =>
      match assignment node with
      | some (targets, value) =>
          if targets.any isWaiverTarget then waiverItems value else extractWaivers tree
      | none => extractWaivers tree

/-- The body of `upgrade()`, if that is what a statement defines. -/
def upgradeOf : Stmt → Option (List Stmt)
  | .functionDef _ name _ body => if name = "upgrade" then some body else none
  | _ => none

/-- The body of the first `upgrade()` of a revision. -/
def upgradeBody (tree : List Stmt) : Option (List Stmt) := tree.findSome? upgradeOf

/-- `inspect_migration_source`, of a source that was parsed. -/
def inspectMigrationSource (path : String) (tree : List Stmt) :
    Except PyError MigrationSafetyReport := do
  let waivers ← extractWaivers tree
  match upgradeBody tree with
  | none =>
      .ok ⟨path, [⟨"missing-upgrade", .error, 1, "Alembic revision does not define upgrade()"⟩],
        waivers⟩
  | some body => .ok ⟨path, (scanBlock upper body false ⟨[], []⟩).issues, waivers⟩

end ProdkitStorage.Migrations
