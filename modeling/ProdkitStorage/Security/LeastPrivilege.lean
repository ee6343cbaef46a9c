import ProdkitStorage.Foundation.Transition
import ProdkitStorage.Python.Text
import ProdkitStorage.Security.Effects
import ProdkitStorage.Security.RoleScripts

/-!
# Least privilege over a deployment

A deployment runs the bootstrap script, the grants script and migrations, in any order and any
number of times.  The statements of a script commit one by one, and a script may stop anywhere.
A migration runs as the owner role.  The server cuts every name of a script to 63 bytes, so two
roles may become one; the results are about names that stay apart (`asRead`).

`Bounded` is the invariant: no privilege is ever granted outside `Within`.  What the grants script
takes from the runtime role on the shared tables stays taken while `sealedSince` holds.
-/

namespace ProdkitStorage.Security

open ProdkitStorage.Foundation (System)
open ProdkitStorage.Python (takeStr)

/-! ## Deployments -/

/-- A step of a deployment.  The number says how many statements of the script were run. -/
inductive Action where
  | bootstrap (statements : Nat)
  | grants (statements : Nat)
  | createTable (name : String)
  | dropTable (name : String)
deriving DecidableEq

/-- The name the server makes of an identifier, which has characters of one byte only. -/
def serverName (name : String) : String := takeStr 63 name

/-- The roles as the server reads them. -/
def PostgresRoleNames.asRead (roles : PostgresRoleNames) : PostgresRoleNames where
  owner := serverName roles.owner
  migrator := serverName roles.migrator
  runtime := serverName roles.runtime
  readOnly := serverName roles.readOnly
  support := serverName roles.support

/-- One step, with the names of the server. -/
inductive Deploys (database schema : String) (roles : PostgresRoleNames) :
    Catalog → Action → Catalog → Prop where
  | bootstrap {c c' : Catalog} (statements : Nat) :
      runAll c ((bootstrapStatements database schema roles).take statements) = some c' →
      Deploys database schema roles c (.bootstrap statements) c'
  | grants {c c' : Catalog} (statements : Nat) :
      runAll c ((grantsStatements schema roles).take statements) = some c' →
      Deploys database schema roles c (.grants statements) c'
  | createTable {c c' : Catalog} (name : String) :
      c.createTable roles.owner schema name = some c' →
      Deploys database schema roles c (.createTable name) c'
  | dropTable {c c' : Catalog} (name : String) :
      c.dropTable roles.owner schema name = some c' →
      Deploys database schema roles c (.dropTable name) c'

/-- A server on which the schema is empty.  Roles may be there, with any attributes, but the
runtime, read-only and support roles are members of none. -/
structure Fresh (schema : String) (roles : PostgresRoleNames) (c : Catalog) : Prop where
  noTables : ∀ name, c.table schema name = none
  noDefaults : ∀ s, c.schemas schema = some s → ∀ creator privilege role,
    s.tableDefaults creator privilege role = false
  noMembers : ∀ role, ∀ member ∈ [roles.runtime, roles.readOnly, roles.support],
    c.members role member = false

/-- The deployments, with the names of the server. -/
def deployments (database schema : String) (roles : PostgresRoleNames) : System Catalog Action where
  init := Fresh schema roles
  step := Deploys database schema roles

/-- The deployments of the scripts for these names. -/
def scriptDeployments (database schema : String) (roles : PostgresRoleNames) :
    System Catalog Action :=
  deployments (serverName database) (serverName schema) roles.asRead

/-! ## The invariant -/

/-- The roles of the application. -/
def PostgresRoleNames.limited (roles : PostgresRoleNames) : List String :=
  [roles.runtime, roles.readOnly, roles.support]

/-- The rights of the application on the tables. -/
def Within (roles : PostgresRoleNames) (privilege : Privilege) (role : String) : Prop :=
  (role = roles.runtime ∧ privilege ∈ readWrite) ∨
    (role ∈ [roles.readOnly, roles.support] ∧ privilege = .select)

/-- No right is granted but those of the application. -/
structure Bounded (schema : String) (roles : PostgresRoleNames) (c : Catalog) : Prop where
  owners : ∀ name table, c.table schema name = some table → table.owner = roles.owner
  grants : ∀ name table, c.table schema name = some table → ∀ privilege role,
    table.grants privilege role = true → Within roles privilege role
  columns : ∀ name table, c.table schema name = some table → ∀ column privilege role,
    table.columns column privilege role = true →
      name = auditTable ∧ column = "occurred_at" ∧ privilege = .select ∧ role = roles.runtime
  defaults : ∀ s, c.schemas schema = some s → ∀ privilege role,
    s.tableDefaults roles.owner privilege role = true → Within roles privilege role
  members : ∀ member ∈ roles.limited, ∀ role, c.members role member = false

/-- The statement grants no right but those of the application. -/
def Statement.Lawful (schema : String) (roles : PostgresRoleNames) : Statement → Prop
  | .grantRole _ member => member ∉ roles.limited
  | .defaultTables _ _ privileges grantees | .grantAllTables privileges _ grantees =>
      ∀ privilege ∈ privileges, ∀ role ∈ grantees, Within roles privilege role
  | .grantTable privileges _ _ role => ∀ privilege ∈ privileges, Within roles privilege role
  | .grantColumn privilege column schema' name role => schema' = schema →
      name = auditTable ∧ column = "occurred_at" ∧ privilege = .select ∧ role = roles.runtime
  | _ => True

theorem bounded_run {c c' : Catalog} {statement : Statement} {schema : String}
    {roles : PostgresRoleNames} (hlawful : statement.Lawful schema roles)
    (h : statement.run c = some c') (hc : Bounded schema roles c) : Bounded schema roles c' := by
  refine ⟨?_, ?_, ?_, ?_, ?_⟩
  · intro name table' ht
    rw [run_table h, Option.map_eq_some_iff] at ht
    obtain ⟨table, ht, rfl⟩ := ht
    rw [onTableOf_owner]
    exact hc.owners name table ht
  · intro name table' ht privilege role hheld
    rw [run_table h, Option.map_eq_some_iff] at ht
    obtain ⟨table, ht, rfl⟩ := ht
    rw [onTableOf_grants, Bool.or_eq_true, Bool.and_eq_true] at hheld
    rcases hheld with ⟨hheld, -⟩ | hgives
    · exact hc.grants name table ht privilege role hheld
    · cases statement with
      | grantAllTables privileges schema' grantees =>
          simp only [Statement.gives, Bool.and_eq_true, decide_eq_true_eq] at hgives
          exact hlawful privilege hgives.1.2 role hgives.2
      | grantTable privileges schema' name' role' =>
          simp only [Statement.gives, Bool.and_eq_true, decide_eq_true_eq] at hgives
          obtain ⟨⟨-, hp⟩, rfl⟩ := hgives
          exact hlawful privilege hp
      | _ => simp [Statement.gives] at hgives
  · intro name table' ht column privilege role hheld
    rw [run_table h, Option.map_eq_some_iff] at ht
    obtain ⟨table, ht, rfl⟩ := ht
    have hbefore := hc.columns name table ht column privilege role
    cases statement with
    | grantColumn privilege' column' schema' name' role' =>
        simp only [Statement.onTableOf] at hheld
        split at hheld
        · next hsame =>
            obtain ⟨rfl, rfl⟩ := hsame
            by_cases hcol : column = column'
            · subst hcol
              simp only [if_true, Grants.grant, List.mem_singleton, Bool.or_eq_true,
                Bool.and_eq_true, decide_eq_true_eq] at hheld
              rcases hheld with hheld | ⟨rfl, rfl⟩
              · exact hbefore hheld
              · exact hlawful rfl
            · simp only [if_neg hcol] at hheld
              exact hbefore hheld
        · exact hbefore hheld
    | revokeTable privileges schema' name' role' =>
        simp only [Statement.onTableOf] at hheld
        split at hheld
        · simp only [Grants.revoke, Bool.and_eq_true] at hheld
          exact hbefore hheld.1
        · exact hbefore hheld
    | grantAllTables privileges schema' grantees =>
        simp only [Statement.onTableOf] at hheld
        split at hheld <;> exact hbefore hheld
    | grantTable privileges schema' name' role' =>
        simp only [Statement.onTableOf] at hheld
        split at hheld <;> exact hbefore hheld
    | _ => exact hbefore hheld
  · intro s' hs' privilege role hheld
    obtain ⟨s, hs, hsame | ⟨creator, privileges, grantees, rfl, hdefaults⟩⟩ := run_defaults h hs'
    · exact hc.defaults s hs privilege role (by rw [← hsame]; exact hheld)
    · rw [hdefaults] at hheld
      by_cases ho : roles.owner = creator
      · simp only [if_pos ho, Grants.grant, Bool.or_eq_true, Bool.and_eq_true,
          decide_eq_true_eq] at hheld
        rcases hheld with hheld | ⟨hp, hr⟩
        · exact hc.defaults s hs privilege role hheld
        · exact hlawful privilege hp role hr
      · simp only [if_neg ho] at hheld
        exact hc.defaults s hs privilege role hheld
  · intro member hmember role
    rw [(run_roles h).2 role member, hc.members member hmember role, Bool.false_or]
    cases statement with
    | grantRole role' member' =>
        have hne : member ≠ member' := by
          rintro rfl
          exact hlawful hmember
        simp [Statement.joins, hne]
    | _ => rfl

theorem bounded_runAll {statements : List Statement} {schema : String} {roles : PostgresRoleNames}
    (hlawful : ∀ statement ∈ statements, statement.Lawful schema roles) {c c' : Catalog}
    (h : runAll c statements = some c') (hc : Bounded schema roles c) :
    Bounded schema roles c' := by
  induction statements generalizing c with
  | nil =>
      cases h
      exact hc
  | cons statement statements ih =>
      obtain ⟨d, hd, hrest⟩ := runAll_cons.mp h
      have hd' := bounded_run (hlawful statement List.mem_cons_self) hd hc
      exact ih (fun later hlater => hlawful later (List.mem_cons_of_mem _ hlater)) hrest hd'

/-! ## The scripts -/

variable {database schema : String} {roles : PostgresRoleNames}

theorem bootstrap_lawful (hroles : roles.Valid) :
    ∀ statement ∈ bootstrapStatements database schema roles, statement.Lawful schema roles := by
  have hdistinct := hroles.distinct
  simp only [PostgresRoleNames.astuple, List.nodup_cons, List.mem_cons, not_or] at hdistinct
  have hmigrator : roles.migrator ∉ roles.limited := by
    simp [PostgresRoleNames.limited, hdistinct.2.1]
  simp [bootstrapStatements, PostgresRoleNames.astuple, Statement.Lawful, hmigrator, Within,
    readWrite]

theorem grants_lawful :
    ∀ statement ∈ grantsStatements schema roles, statement.Lawful schema roles := by
  simp [grantsStatements, Statement.Lawful, Within, readWrite]

/-- The bootstrap script changes no table. -/
theorem bootstrap_table {statement : Statement}
    (h : statement ∈ bootstrapStatements database schema roles) (name : String) :
    statement.onTableOf schema name = id := by
  funext table
  simp only [bootstrapStatements, PostgresRoleNames.astuple, List.map_cons, List.map_nil,
    List.cons_append, List.nil_append, List.mem_cons, List.not_mem_nil, or_false] at h
  rcases h with rfl | rfl | rfl | rfl | rfl | rfl | rfl | rfl | rfl | rfl | rfl | rfl | rfl | rfl |
    rfl | rfl <;> rfl

theorem bootstrap_tables {c c' : Catalog} {statements : List Statement}
    (hmem : ∀ statement ∈ statements, statement ∈ bootstrapStatements database schema roles)
    (h : runAll c statements = some c') (name : String) :
    c'.table schema name = c.table schema name := by
  induction statements generalizing c with
  | nil =>
      cases h
      rfl
  | cons statement statements ih =>
      obtain ⟨d, hd, hrest⟩ := runAll_cons.mp h
      have hlater := ih (fun later hlater => hmem later (List.mem_cons_of_mem _ hlater)) hrest
      rw [hlater, run_table hd, bootstrap_table (hmem statement List.mem_cons_self)]
      simp

/-! ## Runs -/

/-- The catalog after `CREATE TABLE`. -/
theorem createTable_eq_some {c c' : Catalog} {creator name : String}
    (h : c.createTable creator schema name = some c') :
    ∃ s, c.schemas schema = some s ∧
      c' = { c with schemas := assign c.schemas schema { s with
        tables := assign s.tables name
          ⟨creator, s.tableDefaults creator, fun _ _ _ => false⟩ } } := by
  obtain ⟨s, s', hs, hs', rfl⟩ := onSchema_eq_some.mp h
  split at hs'
  · cases hs'
    exact ⟨s, hs, rfl⟩
  · cases hs'

/-- The catalog after `DROP TABLE`. -/
theorem dropTable_eq_some {c c' : Catalog} {creator name : String}
    (h : c.dropTable creator schema name = some c') :
    ∃ s, c.schemas schema = some s ∧ c' = { c with schemas := assign c.schemas schema { s with
      tables := fun other => if other = name then none else s.tables other } } := by
  obtain ⟨s, s', hs, hs', rfl⟩ := onSchema_eq_some.mp h
  split at hs'
  · cases hs'
    exact ⟨s, hs, rfl⟩
  · cases hs'

/-- The tables after `CREATE TABLE`. -/
theorem createTable_table {c : Catalog} {s : Schema} {name : String} {table : Table}
    (hs : c.schemas schema = some s) (other : String) :
    Catalog.table { c with schemas := assign c.schemas schema { s with
      tables := assign s.tables name table } } schema other =
      if other = name then some table else c.table schema other := by
  simp [Catalog.table, assign, hs]

/-- The tables after `DROP TABLE`. -/
theorem dropTable_table {c : Catalog} {s : Schema} {name : String}
    (hs : c.schemas schema = some s) (other : String) :
    Catalog.table { c with schemas := assign c.schemas schema { s with
      tables := fun other => if other = name then none else s.tables other } } schema other =
      if other = name then none else c.table schema other := by
  simp [Catalog.table, assign, hs]

theorem bounded_fresh {c : Catalog} (h : Fresh schema roles c) : Bounded schema roles c where
  owners name table ht := by simp [h.noTables name] at ht
  grants name table ht := by simp [h.noTables name] at ht
  columns name table ht := by simp [h.noTables name] at ht
  defaults s hs privilege role hheld := by simp [h.noDefaults s hs] at hheld
  members member hmember role := h.noMembers role member hmember

theorem bounded_deploys (hroles : roles.Valid) {c c' : Catalog} {action : Action}
    (h : Deploys database schema roles c action c') (hc : Bounded schema roles c) :
    Bounded schema roles c' := by
  cases h with
  | bootstrap statements hrun =>
      exact bounded_runAll (fun statement hmem =>
        bootstrap_lawful hroles statement (List.mem_of_mem_take hmem)) hrun hc
  | grants statements hrun =>
      exact bounded_runAll (fun statement hmem =>
        grants_lawful statement (List.mem_of_mem_take hmem)) hrun hc
  | createTable name hcreate =>
      obtain ⟨s, hs, rfl⟩ := createTable_eq_some hcreate
      constructor
      · intro other table ht
        rw [createTable_table hs] at ht
        split at ht
        · cases ht
          rfl
        · exact hc.owners other table ht
      · intro other table ht
        rw [createTable_table hs] at ht
        split at ht
        · cases ht
          exact hc.defaults s hs
        · exact hc.grants other table ht
      · intro other table ht
        rw [createTable_table hs] at ht
        split at ht
        · cases ht
          simp
        · exact hc.columns other table ht
      · intro s' hs'
        simp only [assign, if_true, Option.some.injEq] at hs'
        subst hs'
        exact hc.defaults s hs
      · exact hc.members
  | dropTable name hdrop =>
      obtain ⟨s, hs, rfl⟩ := dropTable_eq_some hdrop
      constructor
      · intro other table ht
        rw [dropTable_table hs, Option.ite_none_left_eq_some] at ht
        exact hc.owners other table ht.2
      · intro other table ht
        rw [dropTable_table hs, Option.ite_none_left_eq_some] at ht
        exact hc.grants other table ht.2
      · intro other table ht
        rw [dropTable_table hs, Option.ite_none_left_eq_some] at ht
        exact hc.columns other table ht.2
      · intro s' hs'
        simp only [assign, if_true, Option.some.injEq] at hs'
        subst hs'
        exact hc.defaults s hs
      · exact hc.members

theorem bounded_reaches (hroles : roles.Valid) {history : List Action} {c : Catalog}
    (h : (deployments database schema roles).Reaches history c) : Bounded schema roles c :=
  h.invariant (I := fun _ c => Bounded schema roles c) (fun _ => bounded_fresh)
    (fun _ _ _ _ _ hc hstep => bounded_deploys hroles hstep hc)

theorem deploys_unprivileged {c c' : Catalog} {action : Action} {role : String}
    (h : Deploys database schema roles c action c') (hc : Unprivileged role c) :
    Unprivileged role c' := by
  cases h with
  | bootstrap statements hrun => exact runAll_unprivileged hrun (.inr hc)
  | grants statements hrun => exact runAll_unprivileged hrun (.inr hc)
  | createTable name hcreate =>
      obtain ⟨s, -, rfl⟩ := createTable_eq_some hcreate
      exact hc
  | dropTable name hdrop =>
      obtain ⟨s, -, rfl⟩ := dropTable_eq_some hdrop
      exact hc

/-- A bootstrap script that ran to its end leaves no superuser among the roles of the
application, and nothing makes one later. -/
theorem unprivileged_reaches {history : List Action} {c : Catalog} {n : Nat}
    (h : (deployments database schema roles).Reaches history c) (hn : 16 ≤ n)
    (hmem : .bootstrap n ∈ history) {role : String} (hrole : role ∈ roles.limited) :
    Unprivileged role c := by
  induction h with
  | init h0 => cases hmem
  | @step history s t action hr hstep ih =>
      rcases List.mem_cons.mp hmem with rfl | hmem
      · cases hstep with
        | bootstrap _ hrun =>
            have hall : (bootstrapStatements database schema roles).take n =
                bootstrapStatements database schema roles := List.take_of_length_le hn
            rw [hall] at hrun
            refine runAll_unprivileged hrun (.inl ?_)
            simp only [PostgresRoleNames.limited, List.mem_cons, List.not_mem_nil,
              or_false] at hrole
            rcases hrole with rfl | rfl | rfl <;> simp [bootstrapStatements]
      · exact deploys_unprivileged hstep (ih hmem)

/-! ## The shared tables -/

/-- Since the table was created, the grants script ran as far as the statement with the number
`revokedAt`, and it never stopped before that statement again. -/
def sealedSince (revokedAt : Nat) (name : String) : List Action → Bool
  | [] => false
  | .grants statements :: history =>
      if statements = 0 then sealedSince revokedAt name history
      else decide (revokedAt ≤ statements)
  | .createTable other :: history =>
      decide (other ≠ name) && sealedSince revokedAt name history
  | _ :: history => sealedSince revokedAt name history

/-- What the script revokes and does not grant again is withheld. -/
theorem sealed_withheld {privilege : Privilege} {name : String} (before : List Statement)
    {after : List Statement} {revoke : Statement}
    (hscript : grantsStatements schema roles = before ++ revoke :: after)
    (htakes : revoke.takes schema name privilege roles.runtime = true)
    (hgives : ∀ statement ∈ revoke :: after,
      statement.gives schema name privilege roles.runtime = false)
    {history : List Action} {c : Catalog}
    (h : (deployments database schema roles).Reaches history c)
    (hsealed : sealedSince (before.length + 1) name history = true) {table : Table}
    (ht : c.table schema name = some table) : table.grants privilege roles.runtime = false := by
  induction h generalizing table with
  | init h0 => simp [sealedSince] at hsealed
  | @step history s t action hr hstep ih =>
      cases hstep with
      | bootstrap statements hrun =>
          rw [bootstrap_tables (fun statement => List.mem_of_mem_take) hrun] at ht
          exact ih hsealed ht
      | grants statements hrun =>
          rw [runAll_table hrun, Option.map_eq_some_iff] at ht
          obtain ⟨earlier, ht, rfl⟩ := ht
          rw [onTableOfAll_grants]
          cases statements with
          | zero => exact ih hsealed ht
          | succ n =>
              simp only [sealedSince, Nat.add_one_ne_zero, if_false, decide_eq_true_eq] at hsealed
              have hlong : before.length ≤ n := by omega
              have hsplit : (before ++ revoke :: after).take (n + 1) =
                  before ++ revoke :: after.take (n - before.length) := by
                rw [List.take_append, List.take_of_length_le (by omega),
                  Nat.sub_add_comm hlong, List.take_succ_cons]
              rw [hscript, hsplit]
              refine heldAfter_revoked htakes fun statement hmem => hgives statement ?_
              rcases List.mem_cons.mp hmem with rfl | hmem
              · exact List.mem_cons_self
              · exact List.mem_cons_of_mem _ (List.mem_of_mem_take hmem)
      | createTable other hcreate =>
          obtain ⟨s', hs, rfl⟩ := createTable_eq_some hcreate
          simp only [sealedSince, Bool.and_eq_true, decide_eq_true_eq] at hsealed
          rw [createTable_table hs, if_neg (Ne.symm hsealed.1)] at ht
          exact ih hsealed.2 ht
      | dropTable other hdrop =>
          obtain ⟨s', hs, rfl⟩ := dropTable_eq_some hdrop
          rw [dropTable_table hs, Option.ite_none_left_eq_some] at ht
          exact ih hsealed ht.2

theorem PostgresRoleNames.Valid.owner_ne (hroles : roles.Valid) :
    ∀ actor ∈ roles.limited, roles.owner ≠ actor := by
  have hdistinct := hroles.distinct
  simp only [PostgresRoleNames.astuple, List.nodup_cons, List.mem_cons, not_or] at hdistinct
  simp [PostgresRoleNames.limited, hdistinct.1]

theorem PostgresRoleNames.Valid.runtime_ne (hroles : roles.Valid) :
    ∀ role ∈ [roles.readOnly, roles.support], roles.runtime ≠ role := by
  have hdistinct := hroles.distinct
  simp only [PostgresRoleNames.astuple, List.nodup_cons, List.mem_cons, not_or] at hdistinct
  simp [hdistinct.2.2.1]

/-- What a role of the application may do is what it was granted. -/
theorem may_iff (hroles : roles.Valid) {c : Catalog} (hc : Bounded schema roles c) {actor : String}
    (hactor : actor ∈ roles.limited) (hplain : Unprivileged actor c) {privilege : Privilege}
    {name : String} : c.May actor privilege schema name ↔
      ∃ table, c.table schema name = some table ∧ table.grants privilege actor = true := by
  constructor
  · rintro ⟨table, ht, ⟨attributes, ha, hsuper⟩ | ⟨role, hacts, hrole⟩⟩
    · simp [hplain attributes ha] at hsuper
    · rw [acts_as_self (hc.members actor hactor) hacts] at hrole
      rcases hrole with hrole | hrole
      · exact absurd ((hc.owners name table ht).symm.trans hrole) (hroles.owner_ne actor hactor)
      · exact ⟨table, ht, hrole⟩
  · rintro ⟨table, ht, hheld⟩
    exact ⟨table, ht, .inr ⟨actor, .self, .inr hheld⟩⟩

/-- The rights of the runtime role on a table after the grants script. -/
def runtimeRights (name : String) : List Privilege :=
  if name = auditTable then [.insert]
  else if name = outboxTable then [.select, .insert, .update]
  else readWrite

/-- The columns the runtime role may read. -/
def runtimeColumns (name : String) : List String :=
  if name = auditTable then ["occurred_at"] else []

theorem heldAfter_grants {name : String} {privilege : Privilege} {held : Bool}
    (hheld : held = true → privilege ∈ readWrite) :
    heldAfter schema name privilege roles.runtime held (grantsStatements schema roles) =
      decide (privilege ∈ runtimeRights name) := by
  have hnames : auditTable ≠ outboxTable := by decide
  by_cases haudit : name = auditTable
  · subst haudit
    cases privilege <;> simp_all [heldAfter, grantsStatements, Statement.takes, Statement.gives,
      runtimeRights, readWrite, Ne.symm hnames]
  · by_cases houtbox : name = outboxTable
    · subst houtbox
      cases privilege <;> simp_all [heldAfter, grantsStatements, Statement.takes, Statement.gives,
        runtimeRights, readWrite]
    · cases privilege <;> simp_all [heldAfter, grantsStatements, Statement.takes, Statement.gives,
        runtimeRights, readWrite, Ne.symm haudit, Ne.symm houtbox]

theorem heldAfter_grants_select (hroles : roles.Valid) {name : String} {privilege : Privilege}
    {held : Bool} {role : String} (hrole : role ∈ [roles.readOnly, roles.support])
    (hheld : held = true → privilege = .select) :
    heldAfter schema name privilege role held (grantsStatements schema roles) =
      decide (privilege = .select) := by
  have hruntime := Ne.symm (hroles.runtime_ne role hrole)
  cases privilege <;>
    simp_all [heldAfter, grantsStatements, Statement.takes, Statement.gives]

/-- The column that the script opens. -/
theorem columns_grants (table : Table) :
    (onTableOfAll schema auditTable (grantsStatements schema roles) table).columns "occurred_at"
      .select roles.runtime = true := by
  have hnames : outboxTable ≠ auditTable := by decide
  simp [onTableOfAll, grantsStatements, Statement.onTableOf, Grants.grant, hnames]

/-! ## Main results -/

/-- A name that is cut is an identifier still. -/
theorem isPostgresIdentifier_serverName {name : String} (h : isPostgresIdentifier name = true) :
    isPostgresIdentifier (serverName name) = true := by
  unfold isPostgresIdentifier serverName takeStr at *
  rw [String.toList_ofList]
  cases hname : name.toList with
  | nil => simp [hname] at h
  | cons c cs =>
      simp only [hname, Bool.and_eq_true, List.all_eq_true] at h
      simp only [List.take_succ_cons, Bool.and_eq_true, List.all_eq_true]
      exact ⟨h.1, fun d hd => h.2 d (List.mem_of_mem_take hd)⟩

/-- Valid names that the server tells apart are valid names for it. -/
theorem PostgresRoleNames.Valid.asRead (hroles : roles.Valid)
    (hapart : roles.asRead.astuple.Nodup) : roles.asRead.Valid := by
  refine ⟨fun name hname => ?_, hapart⟩
  have hcut : roles.asRead.astuple = roles.astuple.map serverName := rfl
  rw [hcut] at hname
  obtain ⟨given, hgiven, rfl⟩ := List.mem_map.mp hname
  exact isPostgresIdentifier_serverName (hroles.identifiers given hgiven)

/-- A server with an empty database. -/
def emptyServer : Catalog where
  roles _ := none
  members _ _ := false
  databases := assign (fun _ => none) "app" ⟨"postgres", fun _ => false⟩
  schemas := assign (fun _ => none) "public" ⟨"postgres", fun _ => false, fun _ => none,
    fun _ => none, fun _ _ _ => false, fun _ _ _ => false⟩

theorem defaultNames_valid : ({} : PostgresRoleNames).Valid :=
  ⟨by decide +kernel, by decide +kernel⟩

/-- The server reads the default names as they are. -/
theorem scriptDeployments_default :
    scriptDeployments "app" "public" {} = deployments "app" "public" {} := by
  have hdatabase : serverName "app" = "app" := by decide +kernel
  have hschema : serverName "public" = "public" := by decide +kernel
  have hroles : ({} : PostgresRoleNames).asRead = {} := by decide +kernel
  rw [scriptDeployments, hdatabase, hschema, hroles]

/-- A first deployment. -/
theorem first_deployment : ∃ c : Catalog,
    (scriptDeployments "app" "public" {}).Reaches
      [.grants 8, .createTable outboxTable, .createTable auditTable, .bootstrap 16] c ∧
    (c.table "public" auditTable).isSome = true := by
  have hruns : ((do
      let c ← runAll emptyServer ((bootstrapStatements "app" "public" {}).take 16)
      let c ← c.createTable "prodkit_owner" "public" auditTable
      let c ← c.createTable "prodkit_owner" "public" outboxTable
      let c ← runAll c ((grantsStatements "public" {}).take 8)
      c.table "public" auditTable).isSome) = true := by decide +kernel
  obtain ⟨table, h⟩ := Option.isSome_iff_exists.mp hruns
  simp only [Option.bind_eq_bind, Option.bind_eq_some_iff] at h
  obtain ⟨c₁, h₁, c₂, h₂, c₃, h₃, c₄, h₄, ht⟩ := h
  have hfresh : Fresh "public" {} emptyServer := by
    constructor
    · intro name
      rfl
    · intro s hs creator privilege role
      cases hs
      rfl
    · intro role member hmember
      rfl
  rw [scriptDeployments_default]
  have hboot := System.Reaches.step (S := deployments "app" "public" {}) (.init hfresh)
    (.bootstrap 16 h₁)
  have haudit := hboot.step (.createTable auditTable h₂)
  have houtbox := haudit.step (.createTable outboxTable h₃)
  exact ⟨c₄, houtbox.step (.grants 8 h₄), by simp [ht]⟩

/-- After the bootstrap script ran to its end, however migrations and scripts follow each other
and wherever a script stops, the application never holds more than its rights, the runtime role
only appends to a sealed audit table and never deletes from a sealed outbox. -/
theorem application_least_privilege (hvalid : roles.Valid) (hapart : roles.asRead.astuple.Nodup)
    {history : List Action} {c : Catalog}
    (h : (scriptDeployments database schema roles).Reaches history c) {n : Nat} (hn : 16 ≤ n)
    (hboot : .bootstrap n ∈ history) :
    (∀ actor ∈ roles.asRead.limited, ∀ privilege name,
      c.May actor privilege (serverName schema) name → Within roles.asRead privilege actor) ∧
    (sealedSince 4 auditTable history = true →
      (∀ privilege, c.May roles.asRead.runtime privilege (serverName schema) auditTable →
        privilege = .insert) ∧
      ∀ privilege column,
        c.MayColumn roles.asRead.runtime privilege (serverName schema) auditTable column →
          privilege = .insert ∨ privilege = .select ∧ column = "occurred_at") ∧
    (sealedSince 7 outboxTable history = true →
      ¬c.May roles.asRead.runtime .delete (serverName schema) outboxTable) := by
  have hroles := hvalid.asRead hapart
  rw [scriptDeployments] at h
  -- From here on the names are those of the server.
  generalize roles.asRead = roles, serverName schema = schema, serverName database = database at *
  have hbounded := bounded_reaches hroles h
  have hmay : ∀ actor ∈ roles.limited, ∀ privilege name, c.May actor privilege schema name ↔
      ∃ table, c.table schema name = some table ∧ table.grants privilege actor = true := by
    intro actor hactor privilege name
    exact may_iff hroles hbounded hactor (unprivileged_reaches h hn hboot hactor)
  have hruntime : roles.runtime ∈ roles.limited := List.mem_cons_self
  have hwithin : ∀ actor ∈ roles.limited, ∀ privilege name,
      c.May actor privilege schema name → Within roles privilege actor := by
    intro actor hactor privilege name hp
    obtain ⟨table, ht, hheld⟩ := (hmay actor hactor privilege name).mp hp
    exact hbounded.grants name table ht privilege actor hheld
  have haudit : sealedSince 4 auditTable history = true → ∀ privilege,
      c.May roles.runtime privilege schema auditTable → privilege = .insert := by
    intro hsealed privilege hp
    obtain ⟨table, ht, hheld⟩ := (hmay _ hruntime privilege auditTable).mp hp
    have hwithheld : ∀ withheld ∈ [Privilege.select, .update, .delete],
        table.grants withheld roles.runtime = false := by
      intro withheld hmem
      refine sealed_withheld ((grantsStatements schema roles).take 3) rfl ?_ ?_ h
        hsealed ht
      · simpa [Statement.takes] using hmem
      · have hnames : outboxTable ≠ auditTable := by decide
        simp only [List.mem_cons, List.not_mem_nil, or_false] at hmem
        rcases hmem with rfl | rfl | rfl <;> simp [Statement.gives, hnames]
    have hrights := hbounded.grants auditTable table ht privilege _ hheld
    cases privilege <;> simp_all [Within, readWrite]
  refine ⟨hwithin, fun hsealed => ⟨haudit hsealed, ?_⟩, ?_⟩
  · rintro privilege column (hp | ⟨table, ht, role, hacts, hheld⟩)
    · exact .inl (haudit hsealed privilege hp)
    · obtain ⟨-, hcolumn, hselect, -⟩ :=
        hbounded.columns auditTable table ht column privilege role hheld
      exact .inr ⟨hselect, hcolumn⟩
  · intro hsealed hp
    obtain ⟨table, ht, hheld⟩ := (hmay _ hruntime .delete outboxTable).mp hp
    have hwithheld : table.grants .delete roles.runtime = false :=
      sealed_withheld ((grantsStatements schema roles).take 6) rfl
        (by simp [Statement.takes]) (by simp [Statement.gives]) h hsealed ht
    simp [hwithheld] at hheld

theorem application_least_privilege_first : ∃ c : Catalog,
    (c.table "public" auditTable).isSome = true ∧
      ∀ privilege, c.May "prodkit_runtime" privilege "public" auditTable → privilege = .insert := by
  obtain ⟨c, h, hc⟩ := first_deployment
  exact ⟨c, hc, ((application_least_privilege defaultNames_valid (by decide +kernel) h (n := 16)
    (by decide) (by decide)).2.1 (by decide)).1⟩

/-- After a grants script that ran to its end, the application holds exactly its rights. -/
theorem rights_after_grants (hvalid : roles.Valid) (hapart : roles.asRead.astuple.Nodup)
    {history : List Action} {c : Catalog} {n k : Nat}
    (h : (scriptDeployments database schema roles).Reaches (.grants k :: history) c)
    (hk : 8 ≤ k) (hn : 16 ≤ n) (hboot : .bootstrap n ∈ history) {name : String}
    (hname : (c.table (serverName schema) name).isSome = true) :
    (∀ privilege, c.May roles.asRead.runtime privilege (serverName schema) name ↔
      privilege ∈ runtimeRights name) ∧
    (∀ privilege column,
      c.MayColumn roles.asRead.runtime privilege (serverName schema) name column ↔
      privilege ∈ runtimeRights name ∨
        privilege = .select ∧ column ∈ runtimeColumns name) ∧
    ∀ role ∈ [roles.asRead.readOnly, roles.asRead.support], ∀ privilege,
      c.May role privilege (serverName schema) name ↔ privilege = .select := by
  have hroles := hvalid.asRead hapart
  rw [scriptDeployments] at h
  generalize roles.asRead = roles, serverName schema = schema, serverName database = database at *
  have hbounded := bounded_reaches hroles h
  have hplain : ∀ actor ∈ roles.limited, Unprivileged actor c := fun actor hactor =>
    unprivileged_reaches h hn (List.mem_cons_of_mem _ hboot) hactor
  have hruntime : roles.runtime ∈ roles.limited := List.mem_cons_self
  obtain ⟨after, hafter⟩ := Option.isSome_iff_exists.mp hname
  -- the table, and what the script made of it
  obtain ⟨table, hrights, hcolumns, rfl⟩ : ∃ table,
      (∀ privilege role, table.grants privilege role = true → Within roles privilege role) ∧
      (∀ column privilege role, after.columns column privilege role = true →
        name = auditTable ∧ column = "occurred_at" ∧ privilege = .select ∧
          role = roles.runtime) ∧
      onTableOfAll schema name (grantsStatements schema roles) table = after := by
    cases h with
    | step hr hstep =>
        cases hstep with
        | grants _ hrun =>
            rw [List.take_of_length_le hk] at hrun
            have hbefore := hafter
            rw [runAll_table hrun, Option.map_eq_some_iff] at hbefore
            obtain ⟨table, ht, htable⟩ := hbefore
            exact ⟨table, (bounded_reaches hroles hr).grants name table ht,
              hbounded.columns name after hafter, htable⟩
  have hmay : ∀ actor ∈ roles.limited, ∀ privilege, c.May actor privilege schema name ↔
      heldAfter schema name privilege actor (table.grants privilege actor)
        (grantsStatements schema roles) = true := by
    intro actor hactor privilege
    rw [may_iff hroles hbounded hactor (hplain actor hactor), hafter]
    simp [onTableOfAll_grants]
  have hheld : ∀ privilege, c.May roles.runtime privilege schema name ↔
      privilege ∈ runtimeRights name := by
    intro privilege
    rw [hmay _ hruntime privilege, heldAfter_grants fun hp => ?_, decide_eq_true_eq]
    rcases hrights privilege _ hp with ⟨-, hp⟩ | ⟨hother, -⟩
    · exact hp
    · exact absurd rfl (hroles.runtime_ne _ hother)
  refine ⟨hheld, fun privilege column => or_congr (hheld privilege) ?_, ?_⟩
  · constructor
    · rintro ⟨other, hother, role, hacts, hcolumn⟩
      cases hafter.symm.trans hother
      obtain ⟨rfl, rfl, rfl, -⟩ := hcolumns column privilege role hcolumn
      exact ⟨rfl, by simp [runtimeColumns]⟩
    · rintro ⟨rfl, hcolumn⟩
      by_cases haudit : name = auditTable
      · subst haudit
        simp only [runtimeColumns, if_true, List.mem_singleton] at hcolumn
        subst hcolumn
        exact ⟨_, hafter, roles.runtime, .self, columns_grants table⟩
      · simp [runtimeColumns, haudit] at hcolumn
  · intro role hrole privilege
    have hactor : role ∈ roles.limited := List.mem_cons_of_mem _ hrole
    rw [hmay role hactor privilege, heldAfter_grants_select hroles hrole fun hp => ?_,
      decide_eq_true_eq]
    rcases hrights privilege _ hp with ⟨hother, -⟩ | ⟨-, hp⟩
    · exact absurd hother.symm (hroles.runtime_ne role hrole)
    · exact hp

theorem rights_after_grants_first : ∃ c : Catalog,
    c.May "prodkit_runtime" .insert "public" auditTable ∧
      ¬c.May "prodkit_runtime" .update "public" auditTable ∧
      c.MayColumn "prodkit_runtime" .select "public" auditTable "occurred_at" ∧
      c.May "prodkit_readonly" .select "public" auditTable := by
  obtain ⟨c, h, hc⟩ := first_deployment
  obtain ⟨hmay, hcolumn, hselect⟩ := rights_after_grants defaultNames_valid (by decide +kernel) h
    (n := 16) (by decide) (by decide) (by decide) hc
  exact ⟨c, (hmay .insert).mpr (by decide), fun hp => absurd ((hmay .update).mp hp) (by decide),
    (hcolumn .select "occurred_at").mpr (by decide),
    (hselect "prodkit_readonly" (by decide) .select).mpr rfl⟩

end ProdkitStorage.Security
