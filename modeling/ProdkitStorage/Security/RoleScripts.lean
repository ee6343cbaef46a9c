import Mathlib.Data.List.Dedup
import ProdkitStorage.Security.Roles

/-!
# The role scripts are read as they are meant

Whatever names a caller gives, a template is rendered only when each of them is an identifier and
the roles are distinct, and a SQL client takes the script apart into the statements of
`bootstrapStatements` and `grantsStatements`: no name ends a statement, a quotation or a comment.
-/

namespace ProdkitStorage.Security

open ProdkitStorage.Foundation
open ProdkitStorage.Python

/-! ## Names -/

/-- The names are those a template takes. -/
structure PostgresRoleNames.Valid (roles : PostgresRoleNames) : Prop where
  identifiers : ∀ role ∈ roles.astuple, isPostgresIdentifier role = true
  distinct : roles.astuple.Nodup

theorem postgresIdentifier_eq_ok {value name : String} :
    postgresIdentifier value = .ok name ↔ isPostgresIdentifier value = true ∧ name = value := by
  unfold postgresIdentifier
  split
  · next h => simp [h, eq_comm]
  · next h => simp [h]

theorem mapM_postgresIdentifier {values names : List String} :
    values.mapM postgresIdentifier = .ok names ↔
      (∀ value ∈ values, isPostgresIdentifier value = true) ∧ names = values := by
  simp only [mapM_eq_ok, postgresIdentifier_eq_ok]
  induction values generalizing names with
  | nil => simp
  | cons value values ih =>
      rw [List.forall₂_cons_left_iff, List.forall_mem_cons]
      constructor
      · rintro ⟨_, _, ⟨hvalue, rfl⟩, hrest, rfl⟩
        obtain ⟨hvalues, rfl⟩ := ih.mp hrest
        exact ⟨⟨hvalue, hvalues⟩, rfl⟩
      · rintro ⟨⟨hvalue, hvalues⟩, rfl⟩
        exact ⟨value, values, ⟨hvalue, rfl⟩, ih.mpr ⟨hvalues, rfl⟩, rfl⟩

theorem validated_eq_ok {roles valid : PostgresRoleNames} :
    roles.validated = .ok valid ↔ roles.Valid ∧ valid = roles := by
  have hcount : roles.astuple.dedup.length = 5 ↔ roles.astuple.Nodup := by
    constructor
    · intro h
      have hsame : roles.astuple.dedup = roles.astuple :=
        (List.dedup_sublist _).eq_of_length h
      exact List.dedup_eq_self.mp hsame
    · intro h
      rw [List.dedup_eq_self.mpr h]
      rfl
  simp only [PostgresRoleNames.validated, bind_eq_ok, mapM_postgresIdentifier]
  constructor
  · rintro ⟨_, ⟨hidentifiers, -⟩, h⟩
    split at h
    · cases h
    · next hdistinct =>
        exact ⟨⟨hidentifiers, hcount.mp (not_not.mp hdistinct)⟩, (Except.ok.inj h).symm⟩
  · rintro ⟨hvalid, rfl⟩
    exact ⟨_, ⟨hvalid.identifiers, rfl⟩, by simp [hcount.mpr hvalid.distinct]⟩

/-- What an identifier is made of. -/
theorem identifier_chars {value : String} (h : isPostgresIdentifier value = true) :
    ∀ c ∈ value.toList, isIdentifierChar c = true := by
  unfold isPostgresIdentifier at h
  cases hchars : value.toList with
  | nil => simp
  | cons c cs =>
      simp only [hchars, Bool.and_eq_true, List.all_eq_true] at h
      intro d hd
      rcases List.mem_cons.mp hd with rfl | hd
      · simp [isIdentifierChar, h.1]
      · exact h.2 d hd

theorem isPlain_of_identifierChar {c : Char} (h : isIdentifierChar c = true) :
    isPlain c = true := by
  have hnone : ['-', '$', '\'', ';'].all (fun d => !isIdentifierChar d) = true := rfl
  have hapart : ∀ d ∈ ['-', '$', '\'', ';'], c ≠ d := by
    rintro d hd rfl
    have hc := List.all_eq_true.mp hnone c hd
    simp [h] at hc
  simp only [List.forall_mem_cons] at hapart
  simp [isPlain, hapart]

theorem identifier_plain {value : String} (h : isPostgresIdentifier value = true) :
    Plain value :=
  fun c hc => isPlain_of_identifierChar (identifier_chars h c hc)

/-! ## Statements -/

/-- The names in a statement. -/
def Statement.names : Statement → List String
  | .ensureRole role _ => [role]
  | .alterDatabaseOwner database owner => [database, owner]
  | .grantConnect database roles => database :: roles
  | .alterSchemaOwner schema owner => [schema, owner]
  | .grantUsage schema roles => schema :: roles
  | .grantRole role member => [role, member]
  | .restrictRole role => [role]
  | .defaultTables creator schema _ roles => creator :: schema :: roles
  | .defaultSequences creator schema _ roles => creator :: schema :: roles
  | .grantAllTables _ schema roles => schema :: roles
  | .grantAllSequences _ schema roles => schema :: roles
  | .revokeTable _ schema table role => [schema, table, role]
  | .grantTable _ schema table role => [schema, table, role]
  | .grantColumn _ column schema table role => [column, schema, table, role]

theorem plain_commas {names : List String} (h : ∀ name ∈ names, Plain name) :
    Plain (commas names) :=
  plain_intercalate (by decide) h

theorem plain_privileges (privileges : List Privilege) :
    Plain (commas (privileges.map Privilege.sql)) := by
  refine plain_commas fun name hname => ?_
  obtain ⟨privilege, -, rfl⟩ := List.mem_map.mp hname
  cases privilege <;> decide

/-- The body of a role block has no `$`. -/
theorem roleBody_lacks {role : String} (hrole : isPostgresIdentifier role = true)
    (login : Bool) : Lacks '$' (roleBody role login) := by
  have hname : Lacks '$' role := by
    intro h
    exact absurd (identifier_chars hrole _ h) (by decide)
  simp only [roleBody, String.intercalate_cons_cons, String.intercalate_singleton, lacks_append,
    hname]
  cases login with
  | true => decide
  | false => decide

/-- A statement whose names are identifiers is read as one statement. -/
theorem Statement.readable {statement : Statement}
    (h : ∀ name ∈ statement.names, isPostgresIdentifier name = true) :
    (ScriptPart.statement statement.sql).Readable := by
  have hplain : ∀ name ∈ statement.names, Plain name := fun name hname =>
    identifier_plain (h name hname)
  rw [Statement.sql]
  cases statement with
  | ensureRole role login =>
      exact .dollar (by decide) (by decide) (roleBody_lacks (h role List.mem_cons_self) login)
  | alterDatabaseOwner database owner =>
      refine ScriptPart.readable_join (by decide) ?_
      simp only [names, List.forall_mem_cons] at hplain ⊢
      exact ⟨by decide, hplain.1, by decide, hplain.2⟩
  | alterSchemaOwner schema owner =>
      refine ScriptPart.readable_join (by decide) ?_
      simp only [names, List.forall_mem_cons] at hplain ⊢
      exact ⟨by decide, hplain.1, by decide, hplain.2⟩
  | grantConnect database roles =>
      refine ScriptPart.readable_join (by decide) ?_
      simp only [names, List.forall_mem_cons] at hplain ⊢
      exact ⟨by decide, hplain.1, by decide, by decide, plain_commas hplain.2, by simp⟩
  | grantUsage schema roles =>
      refine ScriptPart.readable_join (by decide) ?_
      simp only [names, List.forall_mem_cons] at hplain ⊢
      exact ⟨by decide, hplain.1, by decide, by decide, plain_commas hplain.2, by simp⟩
  | grantRole role member =>
      refine ScriptPart.readable_join (by decide) ?_
      simp only [names, List.forall_mem_cons] at hplain ⊢
      exact ⟨by decide, hplain.1, by decide, hplain.2⟩
  | restrictRole role =>
      refine ScriptPart.readable_join (by decide) ?_
      simp only [names, List.forall_mem_cons] at hplain ⊢
      exact ⟨by decide, hplain.1, by decide, hplain.2⟩
  | defaultTables creator schema privileges roles =>
      refine ScriptPart.readable_join (by decide) ?_
      simp only [names, List.forall_mem_cons] at hplain ⊢
      refine ⟨by decide, hplain.1, by decide, hplain.2.1, by decide, ?_, plain_commas hplain.2.2,
        by simp⟩
      simp only [plain_append, plain_privileges]
      decide
  | defaultSequences creator schema privileges roles =>
      refine ScriptPart.readable_join (by decide) ?_
      simp only [names, List.forall_mem_cons] at hplain ⊢
      refine ⟨by decide, hplain.1, by decide, hplain.2.1, by decide, ?_, plain_commas hplain.2.2,
        by simp⟩
      simp only [plain_append, plain_privileges]
      decide
  | grantAllTables privileges schema roles =>
      refine ScriptPart.readable_join ((Begins.append (by decide) _).append _) ?_
      simp only [names, List.forall_mem_cons] at hplain ⊢
      refine ⟨?_, hplain.1, by decide, plain_commas hplain.2, by simp⟩
      simp only [plain_append, plain_privileges]
      decide
  | grantAllSequences privileges schema roles =>
      refine ScriptPart.readable_join ((Begins.append (by decide) _).append _) ?_
      simp only [names, List.forall_mem_cons] at hplain ⊢
      refine ⟨?_, hplain.1, by decide, plain_commas hplain.2, by simp⟩
      simp only [plain_append, plain_privileges]
      decide
  | revokeTable privileges schema table role =>
      refine ScriptPart.readable_join ((Begins.append (by decide) _).append _) ?_
      simp only [names, List.forall_mem_cons] at hplain ⊢
      simp only [plain_append, plain_privileges, hplain, true_and, and_true]
      decide
  | grantTable privileges schema table role =>
      refine ScriptPart.readable_join ((Begins.append (by decide) _).append _) ?_
      simp only [names, List.forall_mem_cons] at hplain ⊢
      simp only [plain_append, plain_privileges, hplain, true_and, and_true]
      decide
  | grantColumn privilege column schema table role =>
      refine ScriptPart.readable_join
        ((((Begins.append (by decide) _).append _).append _).append _) ?_
      simp only [names, List.forall_mem_cons] at hplain ⊢
      simp only [plain_append, hplain, true_and, and_true]
      cases privilege <;> decide

/-! ## The parts of the scripts -/

/-- The parts of `render_post_migration_grants_sql`. -/
def grantsParts (schema : String) (roles : PostgresRoleNames) : List ScriptPart :=
  [.comment "-- Generated by prodkit-storage. Apply after migrations.",
    .statement (Statement.grantAllTables readWrite schema [roles.runtime]).sql, .newline,
    .statement (Statement.grantAllTables [.select] schema [roles.readOnly, roles.support]).sql,
    .newline,
    .statement (Statement.grantAllSequences [.usage, .select] schema [roles.runtime]).sql,
    .newline, .newline,
    .comment
      "-- Shared audit table: runtime may append but cannot read payload/history or mutate rows.",
    .statement
      (Statement.revokeTable [.select, .update, .delete] schema auditTable roles.runtime).sql,
    .newline,
    .statement (Statement.grantTable [.insert] schema auditTable roles.runtime).sql, .newline,
    .comment "-- SQLAlchemy fetches the server-generated timestamp with INSERT ... RETURNING.",
    .comment "-- PostgreSQL requires SELECT on each column referenced by RETURNING, so expose",
    .comment "-- only this non-payload column rather than granting table-wide audit reads.",
    .statement (Statement.grantColumn .select "occurred_at" schema auditTable roles.runtime).sql,
    .newline, .newline,
    .comment
      "-- Shared outbox table: publishing updates are allowed; retention deletion is separate.",
    .statement (Statement.revokeTable [.delete] schema outboxTable roles.runtime).sql, .newline,
    .statement
      (Statement.grantTable [.select, .insert, .update] schema outboxTable roles.runtime).sql,
    .newline]

/-- The text of the statements of the grants script, as the template has it. -/
theorem grants_sql (schema : String) (roles : PostgresRoleNames) :
    (grantsStatements schema roles).map Statement.sql =
      ["GRANT SELECT, INSERT, UPDATE, DELETE ON ALL TABLES IN SCHEMA " ++ schema ++ " TO " ++
          roles.runtime,
        "GRANT SELECT ON ALL TABLES IN SCHEMA " ++ schema ++ " TO " ++
          (roles.readOnly ++ ", " ++ roles.support),
        "GRANT USAGE, SELECT ON ALL SEQUENCES IN SCHEMA " ++ schema ++ " TO " ++ roles.runtime,
        "REVOKE SELECT, UPDATE, DELETE ON TABLE " ++ schema ++ ".storage_audit_events FROM " ++
          roles.runtime,
        "GRANT INSERT ON TABLE " ++ schema ++ ".storage_audit_events TO " ++ roles.runtime,
        "GRANT SELECT (occurred_at) ON TABLE " ++ schema ++ ".storage_audit_events TO " ++
          roles.runtime,
        "REVOKE DELETE ON TABLE " ++ schema ++ ".storage_outbox_events FROM " ++ roles.runtime,
        "GRANT SELECT, INSERT, UPDATE ON TABLE " ++ schema ++ ".storage_outbox_events TO " ++
          roles.runtime] := by
  simp only [grantsStatements, List.map_cons, List.map_nil, List.cons.injEq, and_true]
  exact ⟨rfl, rfl, rfl, rfl, rfl, rfl, rfl, rfl⟩

theorem assemble_grantsParts {schema script : String} {given : Option PostgresRoleNames}
    (h : renderPostMigrationGrantsSql schema given = .ok script) :
    script = assemble (grantsParts schema (given.getD {})) := by
  obtain ⟨valid, hvalid, hnext⟩ := bind_eq_ok.mp h
  obtain ⟨name, hname, htext⟩ := bind_eq_ok.mp hnext
  rw [(validated_eq_ok.mp hvalid).2, (postgresIdentifier_eq_ok.mp hname).2] at htext
  rw [← Except.ok.inj htext]
  generalize given.getD {} = roles
  have hsql := grants_sql schema roles
  simp only [grantsStatements, List.map_cons, List.map_nil, List.cons.injEq] at hsql
  obtain ⟨h1, h2, h3, h4, h5, h6, h7, h8, -⟩ := hsql
  simp only [grantsParts, assemble, h1, h2, h3, h4, h5, h6, h7, h8, String.intercalate_cons_cons,
    String.intercalate_singleton, String.append_assoc, String.append_empty, String.empty_append]

/-- The parts of `render_role_bootstrap_sql`. -/
def bootstrapParts (database schema : String) (roles : PostgresRoleNames) : List ScriptPart :=
  .comment "-- Generated by prodkit-storage. Review before execution." ::
    (roles.astuple.flatMap fun role =>
      [.statement (Statement.ensureRole role (role ∈ roles.logins)).sql, .newline]) ++
    [.newline,
      .statement (Statement.alterDatabaseOwner database roles.owner).sql, .newline,
      .statement (Statement.grantConnect database roles.logins).sql, .newline, .newline,
      .statement (Statement.alterSchemaOwner schema roles.owner).sql, .newline,
      .statement (Statement.grantUsage schema roles.logins).sql, .newline, .newline,
      .comment "-- NOINHERIT keeps migration privileges explicit; Alembic must SET ROLE.",
      .statement (Statement.grantRole roles.owner roles.migrator).sql, .newline,
      .statement (Statement.restrictRole roles.runtime).sql, .newline,
      .statement (Statement.restrictRole roles.readOnly).sql, .newline,
      .statement (Statement.restrictRole roles.support).sql, .newline, .newline,
      .statement (Statement.defaultTables roles.owner schema readWrite [roles.runtime]).sql,
      .newline,
      .statement
        (Statement.defaultTables roles.owner schema [.select] [roles.readOnly, roles.support]).sql,
      .newline,
      .statement
        (Statement.defaultSequences roles.owner schema [.usage, .select] [roles.runtime]).sql,
      .newline]

/-- The block of a role is its statement. -/
theorem roleBlock_eq (role : String) (login : Bool) :
    roleBlock role login = (Statement.ensureRole role login).sql ++ ";" := by
  have hopen : "DO $$" = "DO " ++ "$$" := rfl
  have hclose : "$$;" = "$$" ++ ";" := rfl
  have hsql : (Statement.ensureRole role login).sql =
      "DO " ++ "$$" ++ roleBody role login ++ "$$" := rfl
  rw [hsql, roleBlock, hopen, hclose]
  generalize roleBody role login = body
  exact String.append_assoc.symm

/-- The text of the other statements of the bootstrap script, as the template has it. -/
theorem bootstrap_sql (database schema : String) (roles : PostgresRoleNames) :
    ((bootstrapStatements database schema roles).drop 5).map Statement.sql =
      ["ALTER DATABASE " ++ database ++ " OWNER TO " ++ roles.owner,
        "GRANT CONNECT ON DATABASE " ++ database ++ "\n" ++ "TO " ++ commas roles.logins,
        "ALTER SCHEMA " ++ schema ++ " OWNER TO " ++ roles.owner,
        "GRANT USAGE ON SCHEMA " ++ schema ++ "\n" ++ "TO " ++ commas roles.logins,
        "GRANT " ++ roles.owner ++ " TO " ++ roles.migrator,
        "ALTER ROLE " ++ roles.runtime ++ " NOBYPASSRLS NOSUPERUSER NOCREATEDB NOCREATEROLE",
        "ALTER ROLE " ++ roles.readOnly ++ " NOBYPASSRLS NOSUPERUSER NOCREATEDB NOCREATEROLE",
        "ALTER ROLE " ++ roles.support ++ " NOBYPASSRLS NOSUPERUSER NOCREATEDB NOCREATEROLE",
        "ALTER DEFAULT PRIVILEGES FOR ROLE " ++ roles.owner ++ " IN SCHEMA " ++ schema ++ "\n" ++
          "  GRANT SELECT, INSERT, UPDATE, DELETE ON TABLES TO " ++ roles.runtime,
        "ALTER DEFAULT PRIVILEGES FOR ROLE " ++ roles.owner ++ " IN SCHEMA " ++ schema ++ "\n" ++
          "  GRANT SELECT ON TABLES TO " ++ (roles.readOnly ++ ", " ++ roles.support),
        "ALTER DEFAULT PRIVILEGES FOR ROLE " ++ roles.owner ++ " IN SCHEMA " ++ schema ++ "\n" ++
          "  GRANT USAGE, SELECT ON SEQUENCES TO " ++ roles.runtime] := by
  simp only [bootstrapStatements, PostgresRoleNames.astuple, List.map_cons, List.map_nil,
    List.cons_append, List.nil_append, List.drop_succ_cons, List.drop_zero, List.cons.injEq,
    and_true]
  exact ⟨rfl, rfl, rfl, rfl, rfl, rfl, rfl, rfl, rfl, rfl, rfl⟩

theorem assemble_bootstrapParts {database schema script : String}
    {given : Option PostgresRoleNames}
    (h : renderRoleBootstrapSql database schema given = .ok script) :
    script = assemble (bootstrapParts database schema (given.getD {})) := by
  obtain ⟨valid, hvalid, hnext⟩ := bind_eq_ok.mp h
  obtain ⟨base, hbase, hnext'⟩ := bind_eq_ok.mp hnext
  obtain ⟨name, hname, htext⟩ := bind_eq_ok.mp hnext'
  rw [(validated_eq_ok.mp hvalid).2, (postgresIdentifier_eq_ok.mp hbase).2,
    (postgresIdentifier_eq_ok.mp hname).2] at htext
  rw [← Except.ok.inj htext]
  generalize given.getD {} = roles
  have hlogins : commas roles.logins =
      roles.migrator ++ ", " ++ roles.runtime ++ ", " ++ roles.readOnly ++ ", " ++ roles.support :=
    rfl
  have hsql := bootstrap_sql database schema roles
  simp only [bootstrapStatements, PostgresRoleNames.astuple, List.map_cons, List.map_nil,
    List.cons_append, List.nil_append, List.drop_succ_cons, List.drop_zero,
    List.cons.injEq, hlogins] at hsql
  obtain ⟨h1, h2, h3, h4, h5, h6, h7, h8, h9, h10, h11, -⟩ := hsql
  simp only [bootstrapParts, PostgresRoleNames.astuple, List.map_cons, List.map_nil,
    List.flatMap_cons, List.flatMap_nil, List.cons_append, List.nil_append, assemble, roleBlock_eq,
    h1, h2, h3, h4, h5, h6, h7, h8, h9, h10, h11, String.intercalate_cons_cons,
    String.intercalate_singleton, String.append_assoc, String.append_empty, String.empty_append]

/-! ## The scripts -/

/-- The names in the statements of the scripts. -/
theorem bootstrapStatements_names {database schema : String} {roles : PostgresRoleNames}
    (hroles : roles.Valid) (hdatabase : isPostgresIdentifier database = true)
    (hschema : isPostgresIdentifier schema = true) :
    ∀ statement ∈ bootstrapStatements database schema roles, ∀ name ∈ statement.names,
      isPostgresIdentifier name = true := by
  have h := hroles.identifiers
  simp only [PostgresRoleNames.astuple, List.forall_mem_cons] at h
  simp [bootstrapStatements, PostgresRoleNames.astuple, PostgresRoleNames.logins, Statement.names,
    h, hdatabase, hschema]

theorem grantsStatements_names {schema : String} {roles : PostgresRoleNames}
    (hroles : roles.Valid) (hschema : isPostgresIdentifier schema = true) :
    ∀ statement ∈ grantsStatements schema roles, ∀ name ∈ statement.names,
      isPostgresIdentifier name = true := by
  have h := hroles.identifiers
  simp only [PostgresRoleNames.astuple, List.forall_mem_cons] at h
  have htables : isPostgresIdentifier auditTable = true ∧ isPostgresIdentifier outboxTable = true ∧
      isPostgresIdentifier "occurred_at" = true := by decide
  simp [grantsStatements, Statement.names, h, hschema, htables]

/-- A script of the statements, with names that are identifiers, is read back as them. -/
theorem readScript_statements {parts : List ScriptPart} {statements : List Statement}
    (hlines : parts.all ScriptPart.isLine = true)
    (htexts : parts.filterMap ScriptPart.statement? = statements.map Statement.sql)
    (hnames : ∀ statement ∈ statements, ∀ name ∈ statement.names,
      isPostgresIdentifier name = true) :
    readScript (assemble parts) = statements.map Statement.sql := by
  rw [← htexts]
  refine readScript_assemble (readable_parts hlines ?_)
  intro text htext
  rw [htexts] at htext
  obtain ⟨statement, hstatement, rfl⟩ := List.mem_map.mp htext
  exact Statement.readable (hnames statement hstatement)

theorem renderRoleBootstrapSql_isOk {database schema : String} {given : Option PostgresRoleNames} :
    (∃ script, renderRoleBootstrapSql database schema given = .ok script) ↔
      (given.getD {}).Valid ∧ isPostgresIdentifier database = true ∧
        isPostgresIdentifier schema = true := by
  simp only [renderRoleBootstrapSql, bind_eq_ok, validated_eq_ok, postgresIdentifier_eq_ok]
  constructor
  · rintro ⟨_, _, ⟨hroles, rfl⟩, _, ⟨hdatabase, rfl⟩, _, ⟨hschema, rfl⟩, -⟩
    exact ⟨hroles, hdatabase, hschema⟩
  · rintro ⟨hroles, hdatabase, hschema⟩
    exact ⟨_, _, ⟨hroles, rfl⟩, _, ⟨hdatabase, rfl⟩, _, ⟨hschema, rfl⟩, rfl⟩

theorem renderPostMigrationGrantsSql_isOk {schema : String} {given : Option PostgresRoleNames} :
    (∃ script, renderPostMigrationGrantsSql schema given = .ok script) ↔
      (given.getD {}).Valid ∧ isPostgresIdentifier schema = true := by
  simp only [renderPostMigrationGrantsSql, bind_eq_ok, validated_eq_ok, postgresIdentifier_eq_ok]
  constructor
  · rintro ⟨_, _, ⟨hroles, rfl⟩, _, ⟨hschema, rfl⟩, -⟩
    exact ⟨hroles, hschema⟩
  · rintro ⟨hroles, hschema⟩
    exact ⟨_, _, ⟨hroles, rfl⟩, _, ⟨hschema, rfl⟩, rfl⟩

/-- Whatever names are given, a template is rendered exactly when all of them are identifiers and
the roles are distinct, and a client takes the script apart into the statements it is meant to
run. -/
theorem role_scripts_read_back (database schema : String) (given : Option PostgresRoleNames) :
    ((∃ script, renderRoleBootstrapSql database schema given = .ok script) ↔
        (given.getD {}).Valid ∧ isPostgresIdentifier database = true ∧
          isPostgresIdentifier schema = true) ∧
      (∀ script, renderRoleBootstrapSql database schema given = .ok script →
        readScript script =
          (bootstrapStatements database schema (given.getD {})).map Statement.sql) ∧
      ((∃ script, renderPostMigrationGrantsSql schema given = .ok script) ↔
        (given.getD {}).Valid ∧ isPostgresIdentifier schema = true) ∧
      ∀ script, renderPostMigrationGrantsSql schema given = .ok script →
        readScript script = (grantsStatements schema (given.getD {})).map Statement.sql := by
  refine ⟨renderRoleBootstrapSql_isOk, ?_, renderPostMigrationGrantsSql_isOk, ?_⟩
  · intro script h
    obtain ⟨hroles, hdatabase, hschema⟩ := renderRoleBootstrapSql_isOk.mp ⟨script, h⟩
    rw [assemble_bootstrapParts h]
    exact readScript_statements rfl rfl (bootstrapStatements_names hroles hdatabase hschema)
  · intro script h
    obtain ⟨hroles, hschema⟩ := renderPostMigrationGrantsSql_isOk.mp ⟨script, h⟩
    rw [assemble_grantsParts h]
    exact readScript_statements rfl rfl (grantsStatements_names hroles hschema)

end ProdkitStorage.Security
