import ProdkitStorage.Foundation.Script
import ProdkitStorage.Python.Error

/-!
# Database roles

`security/roles.py`.  The two templates are kept line by line, as the source has them.
`Statement` is what the server makes of a statement of a template, and `Statement.sql` is its
text; `bootstrapStatements` and `grantsStatements` are the statements of the two scripts.
-/

namespace ProdkitStorage.Security

open ProdkitStorage.Python

/-! ## Names -/

/-- A character that may start an identifier. -/
def isIdentifierStart (c : Char) : Bool := c.isLower || c == '_'

/-- A character of an identifier. -/
def isIdentifierChar (c : Char) : Bool := isIdentifierStart c || c.isDigit

/-- `[a-z_][a-z0-9_]*`, matched in full. -/
def isPostgresIdentifier (value : String) : Bool :=
  match value.toList with
  | [] => false
  | c :: cs => isIdentifierStart c && cs.all isIdentifierChar

/-- `_identifier`. -/
def postgresIdentifier (value : String) : Except PyError String :=
  if isPostgresIdentifier value then .ok value
  else .error (.valueError ("invalid PostgreSQL identifier: " ++ pyRepr value))

/-- `PostgresRoleNames`. -/
structure PostgresRoleNames where
  owner : String := "prodkit_owner"
  migrator : String := "prodkit_migrator"
  runtime : String := "prodkit_runtime"
  readOnly : String := "prodkit_readonly"
  support : String := "prodkit_support"
deriving DecidableEq, Repr

namespace PostgresRoleNames

/-- `astuple(self)`. -/
def astuple (roles : PostgresRoleNames) : List String :=
  [roles.owner, roles.migrator, roles.runtime, roles.readOnly, roles.support]

/-- `validated`. -/
def validated (roles : PostgresRoleNames) : Except PyError PostgresRoleNames := do
  let _ ← roles.astuple.mapM postgresIdentifier
  if roles.astuple.dedup.length ≠ 5 then
    .error (.valueError "database role names must be distinct")
  else return roles

/-- The roles that may log in. -/
def logins (roles : PostgresRoleNames) : List String :=
  [roles.migrator, roles.runtime, roles.readOnly, roles.support]

end PostgresRoleNames

/-! ## Statements -/

/-- The privileges of the server on tables and sequences. -/
inductive Privilege where
  | select
  | insert
  | update
  | delete
  | truncate
  | references
  | trigger
  | usage
deriving DecidableEq, Repr

/-- The name of a privilege. -/
def Privilege.sql : Privilege → String
  | .select => "SELECT"
  | .insert => "INSERT"
  | .update => "UPDATE"
  | .delete => "DELETE"
  | .truncate => "TRUNCATE"
  | .references => "REFERENCES"
  | .trigger => "TRIGGER"
  | .usage => "USAGE"

/-- `SELECT, INSERT, UPDATE, DELETE`. -/
def readWrite : List Privilege := [.select, .insert, .update, .delete]

/-- A statement of one of the scripts. -/
inductive Statement where
  /-- `CREATE ROLE ... NOSUPERUSER NOCREATEDB NOCREATEROLE NOINHERIT NOBYPASSRLS`, unless the role
  is there. -/
  | ensureRole (role : String) (login : Bool)
  | alterDatabaseOwner (database owner : String)
  | grantConnect (database : String) (roles : List String)
  | alterSchemaOwner (schema owner : String)
  | grantUsage (schema : String) (roles : List String)
  | grantRole (role member : String)
  /-- `ALTER ROLE ... NOBYPASSRLS NOSUPERUSER NOCREATEDB NOCREATEROLE`. -/
  | restrictRole (role : String)
  | defaultTables (creator schema : String) (privileges : List Privilege) (roles : List String)
  | defaultSequences (creator schema : String) (privileges : List Privilege) (roles : List String)
  | grantAllTables (privileges : List Privilege) (schema : String) (roles : List String)
  | grantAllSequences (privileges : List Privilege) (schema : String) (roles : List String)
  | revokeTable (privileges : List Privilege) (schema table role : String)
  | grantTable (privileges : List Privilege) (schema table role : String)
  | grantColumn (privilege : Privilege) (column schema table role : String)
deriving DecidableEq, Repr

/-- Names with a comma between them. -/
def commas (names : List String) : String := ", ".intercalate names

/-- The body of the `DO` block of a role. -/
def roleBody (role : String) (login : Bool) : String :=
  "\n".intercalate ["",
    "BEGIN",
    "  IF NOT EXISTS (SELECT 1 FROM pg_roles WHERE rolname = '" ++ role ++ "') THEN",
    "    CREATE ROLE " ++ role ++ " " ++ (if login then "LOGIN" else "NOLOGIN") ++
      " NOSUPERUSER NOCREATEDB NOCREATEROLE NOINHERIT NOBYPASSRLS;",
    "  END IF;",
    "END",
    ""]

/-- The text of a statement, in pieces. -/
def Statement.pieces : Statement → List String
  | .ensureRole role login => ["DO ", "$$", roleBody role login, "$$"]
  | .alterDatabaseOwner database owner => ["ALTER DATABASE ", database, " OWNER TO ", owner]
  | .grantConnect database roles =>
      ["GRANT CONNECT ON DATABASE ", database, "\n", "TO ", commas roles]
  | .alterSchemaOwner schema owner => ["ALTER SCHEMA ", schema, " OWNER TO ", owner]
  | .grantUsage schema roles => ["GRANT USAGE ON SCHEMA ", schema, "\n", "TO ", commas roles]
  | .grantRole role member => ["GRANT ", role, " TO ", member]
  | .restrictRole role =>
      ["ALTER ROLE ", role, " NOBYPASSRLS NOSUPERUSER NOCREATEDB NOCREATEROLE"]
  | .defaultTables creator schema privileges roles =>
      ["ALTER DEFAULT PRIVILEGES FOR ROLE ", creator, " IN SCHEMA ", schema, "\n",
        "  GRANT " ++ commas (privileges.map Privilege.sql) ++ " ON TABLES TO ", commas roles]
  | .defaultSequences creator schema privileges roles =>
      ["ALTER DEFAULT PRIVILEGES FOR ROLE ", creator, " IN SCHEMA ", schema, "\n",
        "  GRANT " ++ commas (privileges.map Privilege.sql) ++ " ON SEQUENCES TO ", commas roles]
  | .grantAllTables privileges schema roles =>
      ["GRANT " ++ commas (privileges.map Privilege.sql) ++ " ON ALL TABLES IN SCHEMA ", schema,
        " TO ", commas roles]
  | .grantAllSequences privileges schema roles =>
      ["GRANT " ++ commas (privileges.map Privilege.sql) ++ " ON ALL SEQUENCES IN SCHEMA ", schema,
        " TO ", commas roles]
  | .revokeTable privileges schema table role =>
      ["REVOKE " ++ commas (privileges.map Privilege.sql) ++ " ON TABLE ", schema,
        "." ++ table ++ " FROM ", role]
  | .grantTable privileges schema table role =>
      ["GRANT " ++ commas (privileges.map Privilege.sql) ++ " ON TABLE ", schema,
        "." ++ table ++ " TO ", role]
  | .grantColumn privilege column schema table role =>
      ["GRANT " ++ privilege.sql ++ " (" ++ column ++ ") ON TABLE ", schema,
        "." ++ table ++ " TO ", role]

/-- The text of a statement. -/
def Statement.sql (statement : Statement) : String := String.join statement.pieces

/-! ## The templates -/

/-- `_role_block`. -/
def roleBlock (role : String) (login : Bool) : String := "DO $$" ++ roleBody role login ++ "$$;"

/-- `render_role_bootstrap_sql`. -/
def renderRoleBootstrapSql (database : String) (schema : String := "public")
    (roles : Option PostgresRoleNames := none) : Except PyError String := do
  let roles ← (roles.getD {}).validated
  let database ← postgresIdentifier database
  let schema ← postgresIdentifier schema
  let declarations := "\n".intercalate
    (roles.astuple.map fun role => roleBlock role (role ∈ roles.logins))
  let everyone :=
    roles.migrator ++ ", " ++ roles.runtime ++ ", " ++ roles.readOnly ++ ", " ++ roles.support
  return "\n".intercalate ["-- Generated by prodkit-storage. Review before execution.",
    declarations,
    "",
    "ALTER DATABASE " ++ database ++ " OWNER TO " ++ roles.owner ++ ";",
    "GRANT CONNECT ON DATABASE " ++ database,
    "TO " ++ everyone ++ ";",
    "",
    "ALTER SCHEMA " ++ schema ++ " OWNER TO " ++ roles.owner ++ ";",
    "GRANT USAGE ON SCHEMA " ++ schema,
    "TO " ++ everyone ++ ";",
    "",
    "-- NOINHERIT keeps migration privileges explicit; Alembic must SET ROLE.",
    "GRANT " ++ roles.owner ++ " TO " ++ roles.migrator ++ ";",
    "ALTER ROLE " ++ roles.runtime ++ " NOBYPASSRLS NOSUPERUSER NOCREATEDB NOCREATEROLE" ++ ";",
    "ALTER ROLE " ++ roles.readOnly ++ " NOBYPASSRLS NOSUPERUSER NOCREATEDB NOCREATEROLE" ++ ";",
    "ALTER ROLE " ++ roles.support ++ " NOBYPASSRLS NOSUPERUSER NOCREATEDB NOCREATEROLE" ++ ";",
    "",
    "ALTER DEFAULT PRIVILEGES FOR ROLE " ++ roles.owner ++ " IN SCHEMA " ++ schema,
    "  GRANT SELECT, INSERT, UPDATE, DELETE ON TABLES TO " ++ roles.runtime ++ ";",
    "ALTER DEFAULT PRIVILEGES FOR ROLE " ++ roles.owner ++ " IN SCHEMA " ++ schema,
    "  GRANT SELECT ON TABLES TO " ++ roles.readOnly ++ ", " ++ roles.support ++ ";",
    "ALTER DEFAULT PRIVILEGES FOR ROLE " ++ roles.owner ++ " IN SCHEMA " ++ schema,
    "  GRANT USAGE, SELECT ON SEQUENCES TO " ++ roles.runtime ++ ";",
    ""]

/-- `render_post_migration_grants_sql`. -/
def renderPostMigrationGrantsSql (schema : String := "public")
    (roles : Option PostgresRoleNames := none) : Except PyError String := do
  let roles ← (roles.getD {}).validated
  let schema ← postgresIdentifier schema
  return "\n".intercalate ["-- Generated by prodkit-storage. Apply after migrations.",
    "GRANT SELECT, INSERT, UPDATE, DELETE ON ALL TABLES IN SCHEMA " ++ schema ++ " TO " ++
      roles.runtime ++ ";",
    "GRANT SELECT ON ALL TABLES IN SCHEMA " ++ schema ++ " TO " ++ roles.readOnly ++ ", " ++
      roles.support ++ ";",
    "GRANT USAGE, SELECT ON ALL SEQUENCES IN SCHEMA " ++ schema ++ " TO " ++ roles.runtime ++ ";",
    "",
    "-- Shared audit table: runtime may append but cannot read payload/history or mutate rows.",
    "REVOKE SELECT, UPDATE, DELETE ON TABLE " ++ schema ++ ".storage_audit_events FROM " ++
      roles.runtime ++ ";",
    "GRANT INSERT ON TABLE " ++ schema ++ ".storage_audit_events TO " ++ roles.runtime ++ ";",
    "-- SQLAlchemy fetches the server-generated timestamp with INSERT ... RETURNING.",
    "-- PostgreSQL requires SELECT on each column referenced by RETURNING, so expose",
    "-- only this non-payload column rather than granting table-wide audit reads.",
    "GRANT SELECT (occurred_at) ON TABLE " ++ schema ++ ".storage_audit_events TO " ++
      roles.runtime ++ ";",
    "",
    "-- Shared outbox table: publishing updates are allowed; retention deletion is separate.",
    "REVOKE DELETE ON TABLE " ++ schema ++ ".storage_outbox_events FROM " ++ roles.runtime ++ ";",
    "GRANT SELECT, INSERT, UPDATE ON TABLE " ++ schema ++ ".storage_outbox_events TO " ++
      roles.runtime ++ ";",
    ""]

/-! ## The scripts -/

/-- The shared audit table. -/
def auditTable : String := "storage_audit_events"

/-- The shared outbox table. -/
def outboxTable : String := "storage_outbox_events"

/-- The statements of `render_role_bootstrap_sql`. -/
def bootstrapStatements (database schema : String) (roles : PostgresRoleNames) : List Statement :=
  roles.astuple.map (fun role => .ensureRole role (role ∈ roles.logins)) ++
    [.alterDatabaseOwner database roles.owner,
      .grantConnect database roles.logins,
      .alterSchemaOwner schema roles.owner,
      .grantUsage schema roles.logins,
      .grantRole roles.owner roles.migrator,
      .restrictRole roles.runtime,
      .restrictRole roles.readOnly,
      .restrictRole roles.support,
      .defaultTables roles.owner schema readWrite [roles.runtime],
      .defaultTables roles.owner schema [.select] [roles.readOnly, roles.support],
      .defaultSequences roles.owner schema [.usage, .select] [roles.runtime]]

/-- The statements of `render_post_migration_grants_sql`. -/
def grantsStatements (schema : String) (roles : PostgresRoleNames) : List Statement :=
  [.grantAllTables readWrite schema [roles.runtime],
    .grantAllTables [.select] schema [roles.readOnly, roles.support],
    .grantAllSequences [.usage, .select] schema [roles.runtime],
    .revokeTable [.select, .update, .delete] schema auditTable roles.runtime,
    .grantTable [.insert] schema auditTable roles.runtime,
    .grantColumn .select "occurred_at" schema auditTable roles.runtime,
    .revokeTable [.delete] schema outboxTable roles.runtime,
    .grantTable [.select, .insert, .update] schema outboxTable roles.runtime]

end ProdkitStorage.Security
