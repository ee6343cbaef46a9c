import ProdkitStorage.Security.Roles

/-!
# Roles and privileges of a server

What the statements of the role scripts do.  A privilege on a table is granted to a role by name,
on the table or on one of its columns.  `REVOKE` on the table takes the privilege away on the
columns too.  A new table starts with the default privileges of its creator in the schema.

A role acts with the privileges it was granted, those of the tables it owns, and those of the
roles it is a member of, which it may `SET ROLE` to.  A superuser may do everything.
-/

namespace ProdkitStorage.Security

/-- The attributes of a role. -/
structure RoleAttributes where
  login : Bool
  superuser : Bool
  createDb : Bool
  createRole : Bool
  inherit : Bool
  bypassRls : Bool
deriving DecidableEq, Repr

/-- Who was granted what on one object. -/
abbrev Grants := Privilege → String → Bool

/-- `GRANT privileges ... TO roles`. -/
def Grants.grant (grants : Grants) (privileges : List Privilege) (roles : List String) : Grants :=
  fun privilege role => grants privilege role || (decide (privilege ∈ privileges) &&
    decide (role ∈ roles))

/-- `REVOKE privileges ... FROM role`. -/
def Grants.revoke (grants : Grants) (privileges : List Privilege) (role : String) : Grants :=
  fun privilege other => grants privilege other && !(decide (privilege ∈ privileges) &&
    decide (other = role))

/-- A table. -/
structure Table where
  owner : String
  grants : Grants
  columns : String → Grants

/-- A sequence. -/
structure Sequence where
  owner : String
  grants : Grants

/-- A schema.  The default privileges are kept by the creator of the object. -/
structure Schema where
  owner : String
  usage : String → Bool
  tables : String → Option Table
  sequences : String → Option Sequence
  tableDefaults : String → Grants
  sequenceDefaults : String → Grants

/-- A database. -/
structure Database where
  owner : String
  connect : String → Bool

/-- The catalog of the server. -/
structure Catalog where
  roles : String → Option RoleAttributes
  /-- `members role member`. -/
  members : String → String → Bool
  databases : String → Option Database
  schemas : String → Option Schema

/-- A finite map with another entry. -/
def assign {β : Type} (map : String → Option β) (name : String) (value : β) : String → Option β :=
  fun other => if other = name then some value else map other

namespace Catalog

/-- Every role exists. -/
def hasRoles (c : Catalog) (roles : List String) : Bool :=
  roles.all fun role => (c.roles role).isSome

/-- Change a database. -/
def onDatabase (c : Catalog) (name : String) (f : Database → Database) : Option Catalog :=
  (c.databases name).map fun database =>
    { c with databases := assign c.databases name (f database) }

/-- Change a schema. -/
def onSchema (c : Catalog) (name : String) (f : Schema → Option Schema) : Option Catalog := do
  let schema ← c.schemas name
  let schema ← f schema
  return { c with schemas := assign c.schemas name schema }

/-- The table. -/
def table (c : Catalog) (schema name : String) : Option Table :=
  (c.schemas schema).bind fun schema => schema.tables name

end Catalog

/-- Change a table. -/
def Schema.onTable (schema : Schema) (name : String) (f : Table → Table) : Option Schema :=
  (schema.tables name).map fun table =>
    { schema with tables := assign schema.tables name (f table) }

/-- Run a statement.  The server rejects it when a role or an object is not there. -/
def Statement.run (c : Catalog) : Statement → Option Catalog
  | .ensureRole role login =>
      match c.roles role with
      | some _ => some c
      | none => some { c with
          roles := assign c.roles role ⟨login, false, false, false, false, false⟩ }
  | .alterDatabaseOwner database owner =>
      if c.hasRoles [owner] then c.onDatabase database fun d => { d with owner := owner } else none
  | .grantConnect database roles =>
      if c.hasRoles roles then
        c.onDatabase database fun d =>
          { d with connect := fun role => d.connect role || decide (role ∈ roles) }
      else none
  | .alterSchemaOwner schema owner =>
      if c.hasRoles [owner] then c.onSchema schema fun s => some { s with owner := owner } else none
  | .grantUsage schema roles =>
      if c.hasRoles roles then
        c.onSchema schema fun s =>
          some { s with usage := fun role => s.usage role || decide (role ∈ roles) }
      else none
  | .grantRole role member =>
      if c.hasRoles [role, member] then
        some { c with members := fun r m => c.members r m || (decide (r = role) &&
          decide (m = member)) }
      else none
  | .restrictRole role =>
      (c.roles role).map fun attributes =>
        { c with roles := assign c.roles role { attributes with
            superuser := false, createDb := false, createRole := false, bypassRls := false } }
  | .defaultTables creator schema privileges roles =>
      if c.hasRoles (creator :: roles) then
        c.onSchema schema fun s => some { s with
          tableDefaults := fun other => if other = creator then
            (s.tableDefaults other).grant privileges roles else s.tableDefaults other }
      else none
  | .defaultSequences creator schema privileges roles =>
      if c.hasRoles (creator :: roles) then
        c.onSchema schema fun s => some { s with
          sequenceDefaults := fun other => if other = creator then
            (s.sequenceDefaults other).grant privileges roles else s.sequenceDefaults other }
      else none
  | .grantAllTables privileges schema roles =>
      if c.hasRoles roles then
        c.onSchema schema fun s => some { s with
          tables := fun name => (s.tables name).map fun table =>
            { table with grants := table.grants.grant privileges roles } }
      else none
  | .grantAllSequences privileges schema roles =>
      if c.hasRoles roles then
        c.onSchema schema fun s => some { s with
          sequences := fun name => (s.sequences name).map fun sequence =>
            { sequence with grants := sequence.grants.grant privileges roles } }
      else none
  | .revokeTable privileges schema table role =>
      if c.hasRoles [role] then
        c.onSchema schema fun s => s.onTable table fun t => { t with
          grants := t.grants.revoke privileges role
          columns := fun column => (t.columns column).revoke privileges role }
      else none
  | .grantTable privileges schema table role =>
      if c.hasRoles [role] then
        c.onSchema schema fun s => s.onTable table fun t =>
          { t with grants := t.grants.grant privileges [role] }
      else none
  | .grantColumn privilege column schema table role =>
      if c.hasRoles [role] then
        c.onSchema schema fun s => s.onTable table fun t => { t with
          columns := fun other => if other = column then
            (t.columns other).grant [privilege] [role] else t.columns other }
      else none

/-- Run statements one after the other. -/
def runAll (c : Catalog) (statements : List Statement) : Option Catalog :=
  statements.foldlM Statement.run c

/-- `CREATE TABLE`, run as the role `creator`, which must own the schema. -/
def Catalog.createTable (c : Catalog) (creator schema name : String) : Option Catalog :=
  c.onSchema schema fun s =>
    if s.owner = creator ∧ s.tables name = none then
      let table : Table := ⟨creator, s.tableDefaults creator, fun _ _ _ => false⟩
      some { s with tables := assign s.tables name table }
    else none

/-- `DROP TABLE`, run as the role `creator`, which must own the table. -/
def Catalog.dropTable (c : Catalog) (creator schema name : String) : Option Catalog :=
  c.onSchema schema fun s =>
    if (s.tables name).any (fun table => table.owner == creator) then
      some { s with tables := fun other => if other = name then none else s.tables other }
    else none

/-! ## What a role may do -/

/-- The role is `actor`, or `actor` may become it. -/
inductive Catalog.ActsAs (c : Catalog) (actor : String) : String → Prop where
  | self : ActsAs c actor actor
  | member {role member : String} : ActsAs c actor member → c.members role member = true →
      ActsAs c actor role

/-- The role may use the privilege on the table. -/
def Catalog.May (c : Catalog) (actor : String) (privilege : Privilege) (schema name : String) :
    Prop :=
  ∃ table, c.table schema name = some table ∧
    ((∃ attributes, c.roles actor = some attributes ∧ attributes.superuser = true) ∨
      ∃ role, c.ActsAs actor role ∧ (table.owner = role ∨ table.grants privilege role = true))

/-- The role may use the privilege on a column of the table. -/
def Catalog.MayColumn (c : Catalog) (actor : String) (privilege : Privilege)
    (schema name column : String) : Prop :=
  c.May actor privilege schema name ∨
    ∃ table, c.table schema name = some table ∧
      ∃ role, c.ActsAs actor role ∧ table.columns column privilege role = true

end ProdkitStorage.Security
