import ProdkitStorage.Security.Catalog

/-!
# What a statement does

The effect of a statement on one table, on one privilege, on the default privileges and on the
roles.  `Statement.onTableOf` is what a statement does to one table, so what a role holds on a
table after a script is read off the statements (`runAll_table`, `heldAfter`).
-/

namespace ProdkitStorage.Security

/-! ## One table -/

/-- What a statement does to a table. -/
def Statement.onTableOf (schema name : String) (table : Table) : Statement → Table
  | .grantAllTables privileges schema' roles =>
      if schema' = schema then { table with grants := table.grants.grant privileges roles }
      else table
  | .revokeTable privileges schema' name' role =>
      if schema' = schema ∧ name' = name then
        { table with
          grants := table.grants.revoke privileges role
          columns := fun column => (table.columns column).revoke privileges role }
      else table
  | .grantTable privileges schema' name' role =>
      if schema' = schema ∧ name' = name then
        { table with grants := table.grants.grant privileges [role] }
      else table
  | .grantColumn privilege column schema' name' role =>
      if schema' = schema ∧ name' = name then
        { table with columns := fun other => if other = column then
            (table.columns other).grant [privilege] [role] else table.columns other }
      else table
  | _ => table

theorem onSchema_eq_some {c c' : Catalog} {name : String} {f : Schema → Option Schema} :
    c.onSchema name f = some c' ↔ ∃ s s', c.schemas name = some s ∧ f s = some s' ∧
      c' = { c with schemas := assign c.schemas name s' } := by
  cases h : c.schemas name with
  | none => simp [Catalog.onSchema, h]
  | some s =>
      cases hf : f s with
      | none => simp [Catalog.onSchema, h, hf]
      | some s' => simp [Catalog.onSchema, h, hf, eq_comm]

theorem onTable_eq_some {s s' : Schema} {name : String} {f : Table → Table} :
    s.onTable name f = some s' ↔ ∃ table, s.tables name = some table ∧
      s' = { s with tables := assign s.tables name (f table) } := by
  cases h : s.tables name with
  | none => simp [Schema.onTable, h]
  | some table => simp [Schema.onTable, h, eq_comm]

/-- The tables of the schema after a change that leaves every other schema alone. -/
theorem onSchema_table {c c' : Catalog} {changed : String} {f : Schema → Option Schema}
    (h : c.onSchema changed f = some c') {g : String → Table → Table}
    (hf : ∀ s s', f s = some s' → ∀ name, s'.tables name = (s.tables name).map (g name))
    (schema name : String) :
    c'.table schema name =
      (c.table schema name).map fun t => if changed = schema then g name t else t := by
  obtain ⟨s, s', hs, hs', rfl⟩ := onSchema_eq_some.mp h
  by_cases hc : changed = schema
  · subst hc
    simp [Catalog.table, assign, hs, hf s s' hs']
  · simp [Catalog.table, assign, hc, Ne.symm hc]

/-- A change of one table. -/
theorem onSchema_onTable {c c' : Catalog} {changed target : String} {f : Table → Table}
    (h : (c.onSchema changed fun s => s.onTable target f) = some c') (schema name : String) :
    c'.table schema name = (c.table schema name).map fun t =>
      if changed = schema ∧ target = name then f t else t := by
  have hone := onSchema_table h (g := fun name t => if target = name then f t else t)
    (by
      intro s s' hs name
      obtain ⟨t, ht, rfl⟩ := onTable_eq_some.mp hs
      by_cases hn : target = name
      · subst hn
        simp [assign, ht]
      · simp [assign, hn, Ne.symm hn]) schema name
  rw [hone]
  congr 1
  funext t
  by_cases hc : changed = schema <;> simp [hc]

/-- A change of a schema that keeps its tables. -/
theorem onSchema_keeps {c c' : Catalog} {changed : String} {f : Schema → Schema}
    (h : (c.onSchema changed fun s => some (f s)) = some c') (hf : ∀ s, (f s).tables = s.tables)
    (schema name : String) : c'.table schema name = c.table schema name := by
  have hsame := onSchema_table h (g := fun _ t => t)
    (by
      intro s s' hs name
      cases hs
      simp [hf]) schema name
  simpa using hsame

theorem onDatabase_keeps {c c' : Catalog} {changed : String} {f : Database → Database}
    (h : c.onDatabase changed f = some c') : c'.schemas = c.schemas ∧ c'.roles = c.roles ∧
      c'.members = c.members := by
  obtain ⟨d, -, rfl⟩ := Option.map_eq_some_iff.mp h
  exact ⟨rfl, rfl, rfl⟩

/-- A statement does to every table of a schema what `onTableOf` says. -/
theorem run_table {c c' : Catalog} {statement : Statement} (h : statement.run c = some c')
    (schema name : String) :
    c'.table schema name = (c.table schema name).map (statement.onTableOf schema name) := by
  cases statement with
  | ensureRole role login =>
      simp only [Statement.run] at h
      split at h <;> cases h <;> simp [Statement.onTableOf, Catalog.table]
  | alterDatabaseOwner database owner =>
      simp only [Statement.run, Option.ite_none_right_eq_some] at h
      simp [Statement.onTableOf, Catalog.table, (onDatabase_keeps h.2).1]
  | grantConnect database roles =>
      simp only [Statement.run, Option.ite_none_right_eq_some] at h
      simp [Statement.onTableOf, Catalog.table, (onDatabase_keeps h.2).1]
  | alterSchemaOwner changed owner =>
      simp only [Statement.run, Option.ite_none_right_eq_some] at h
      simp [Statement.onTableOf, onSchema_keeps h.2 (fun _ => rfl)]
  | grantUsage changed roles =>
      simp only [Statement.run, Option.ite_none_right_eq_some] at h
      simp [Statement.onTableOf, onSchema_keeps h.2 (fun _ => rfl)]
  | grantRole role member =>
      simp only [Statement.run, Option.ite_none_right_eq_some] at h
      obtain ⟨-, hnext⟩ := h
      cases hnext
      simp [Statement.onTableOf, Catalog.table]
  | restrictRole role =>
      obtain ⟨attributes, -, rfl⟩ := Option.map_eq_some_iff.mp h
      simp [Statement.onTableOf, Catalog.table]
  | defaultTables creator changed privileges roles =>
      simp only [Statement.run, Option.ite_none_right_eq_some] at h
      simp [Statement.onTableOf, onSchema_keeps h.2 (fun _ => rfl)]
  | defaultSequences creator changed privileges roles =>
      simp only [Statement.run, Option.ite_none_right_eq_some] at h
      simp [Statement.onTableOf, onSchema_keeps h.2 (fun _ => rfl)]
  | grantAllTables privileges changed roles =>
      simp only [Statement.run, Option.ite_none_right_eq_some] at h
      rw [onSchema_table h.2 (g := fun _ t =>
        { t with grants := t.grants.grant privileges roles }) (fun s s' hs name => by
          cases hs
          rfl) schema name]
      rfl
  | grantAllSequences privileges changed roles =>
      simp only [Statement.run, Option.ite_none_right_eq_some] at h
      simp [Statement.onTableOf, onSchema_keeps h.2 (fun _ => rfl)]
  | revokeTable privileges changed target role =>
      simp only [Statement.run, Option.ite_none_right_eq_some] at h
      exact onSchema_onTable h.2 schema name
  | grantTable privileges changed target role =>
      simp only [Statement.run, Option.ite_none_right_eq_some] at h
      exact onSchema_onTable h.2 schema name
  | grantColumn privilege column changed target role =>
      simp only [Statement.run, Option.ite_none_right_eq_some] at h
      exact onSchema_onTable h.2 schema name

/-- What statements do to a table, one after the other. -/
def onTableOfAll (schema name : String) (statements : List Statement) (table : Table) : Table :=
  statements.foldl (fun table statement => statement.onTableOf schema name table) table

theorem runAll_cons {c c' : Catalog} {statement : Statement} {statements : List Statement} :
    runAll c (statement :: statements) = some c' ↔
      ∃ d, statement.run c = some d ∧ runAll d statements = some c' := by
  simp [runAll, List.foldlM_cons, Option.bind_eq_some_iff]

theorem runAll_table {statements : List Statement} {c c' : Catalog}
    (h : runAll c statements = some c') (schema name : String) :
    c'.table schema name = (c.table schema name).map (onTableOfAll schema name statements) := by
  induction statements generalizing c with
  | nil =>
      cases h
      exact Option.map_id'.symm
  | cons statement statements ih =>
      obtain ⟨d, hd, hrest⟩ := runAll_cons.mp h
      rw [ih hrest, run_table hd, Option.map_map]
      rfl

/-! ## One privilege -/

/-- The statement grants the privilege on the table. -/
def Statement.gives (schema name : String) (privilege : Privilege) (role : String) :
    Statement → Bool
  | .grantAllTables privileges schema' roles =>
      decide (schema' = schema) && decide (privilege ∈ privileges) && decide (role ∈ roles)
  | .grantTable privileges schema' name' role' =>
      decide (schema' = schema ∧ name' = name) && decide (privilege ∈ privileges) &&
        decide (role = role')
  | _ => false

/-- The statement takes the privilege on the table away. -/
def Statement.takes (schema name : String) (privilege : Privilege) (role : String) :
    Statement → Bool
  | .revokeTable privileges schema' name' role' =>
      decide (schema' = schema ∧ name' = name) && decide (privilege ∈ privileges) &&
        decide (role = role')
  | _ => false

theorem onTableOf_grants (statement : Statement) (schema name : String) (table : Table)
    (privilege : Privilege) (role : String) :
    (statement.onTableOf schema name table).grants privilege role =
      ((table.grants privilege role && !statement.takes schema name privilege role) ||
        statement.gives schema name privilege role) := by
  cases statement with
  | grantAllTables privileges schema' roles =>
      by_cases h : schema' = schema <;>
        simp [Statement.onTableOf, Statement.takes, Statement.gives, Grants.grant, h]
  | revokeTable privileges schema' name' role' =>
      by_cases h : schema' = schema ∧ name' = name <;>
        simp [Statement.onTableOf, Statement.takes, Statement.gives, Grants.revoke, h]
  | grantTable privileges schema' name' role' =>
      by_cases h : schema' = schema ∧ name' = name <;>
        simp [Statement.onTableOf, Statement.takes, Statement.gives, Grants.grant, h]
  | grantColumn privilege' column schema' name' role' =>
      by_cases h : schema' = schema ∧ name' = name <;>
        simp [Statement.onTableOf, Statement.takes, Statement.gives, h]
  | _ => simp [Statement.onTableOf, Statement.takes, Statement.gives]

theorem onTableOf_owner (statement : Statement) (schema name : String) (table : Table) :
    (statement.onTableOf schema name table).owner = table.owner := by
  cases statement <;> simp only [Statement.onTableOf] <;> split <;> rfl

/-- Whether the privilege is held after statements, one after the other. -/
def heldAfter (schema name : String) (privilege : Privilege) (role : String) (held : Bool)
    (statements : List Statement) : Bool :=
  statements.foldl (fun held statement =>
    (held && !statement.takes schema name privilege role) ||
      statement.gives schema name privilege role) held

theorem onTableOfAll_grants (schema name : String) (statements : List Statement) (table : Table)
    (privilege : Privilege) (role : String) :
    (onTableOfAll schema name statements table).grants privilege role =
      heldAfter schema name privilege role (table.grants privilege role) statements := by
  induction statements generalizing table with
  | nil => rfl
  | cons statement statements ih =>
      have hrest := ih (statement.onTableOf schema name table)
      rw [onTableOf_grants] at hrest
      exact hrest

/-- A privilege that is not held is not held after statements that do not grant it. -/
theorem heldAfter_withheld {schema name : String} {privilege : Privilege} {role : String}
    {statements : List Statement}
    (h : ∀ statement ∈ statements, statement.gives schema name privilege role = false) :
    heldAfter schema name privilege role false statements = false := by
  induction statements with
  | nil => rfl
  | cons statement statements ih =>
      have hrest := ih fun later hlater => h later (List.mem_cons_of_mem _ hlater)
      simpa [heldAfter, h statement List.mem_cons_self] using hrest

/-- A `REVOKE` that no later statement undoes. -/
theorem heldAfter_revoked {schema name : String} {privilege : Privilege} {role : String}
    {held : Bool} {before after : List Statement} {revoke : Statement}
    (htakes : revoke.takes schema name privilege role = true)
    (h : ∀ statement ∈ revoke :: after, statement.gives schema name privilege role = false) :
    heldAfter schema name privilege role held (before ++ revoke :: after) = false := by
  have hafter := heldAfter_withheld fun later hlater => h later (List.mem_cons_of_mem _ hlater)
  simpa [heldAfter, List.foldl_append, htakes, h revoke List.mem_cons_self] using hafter

/-! ## Roles -/

/-- The role is no superuser. -/
def Unprivileged (role : String) (c : Catalog) : Prop :=
  ∀ attributes, c.roles role = some attributes → attributes.superuser = false

theorem onSchema_roles {c c' : Catalog} {changed : String} {f : Schema → Option Schema}
    (h : c.onSchema changed f = some c') : c'.roles = c.roles ∧ c'.members = c.members := by
  obtain ⟨s, s', -, -, rfl⟩ := onSchema_eq_some.mp h
  exact ⟨rfl, rfl⟩

/-- What a statement does to the attributes of a role. -/
def Statement.onRole (role : String) (attributes : Option RoleAttributes) :
    Statement → Option RoleAttributes
  | .ensureRole role' login =>
      if role = role' then attributes.or (some ⟨login, false, false, false, false, false⟩)
      else attributes
  | .restrictRole role' =>
      if role = role' then attributes.map fun a =>
        { a with superuser := false, createDb := false, createRole := false, bypassRls := false }
      else attributes
  | _ => attributes

/-- The statement makes `member` a member of `role`. -/
def Statement.joins (role member : String) : Statement → Bool
  | .grantRole role' member' => decide (role = role') && decide (member = member')
  | _ => false

/-- What a statement does to the roles and their members. -/
theorem run_roles {c c' : Catalog} {statement : Statement} (h : statement.run c = some c') :
    (∀ role, c'.roles role = statement.onRole role (c.roles role)) ∧
      ∀ role member, c'.members role member =
        (c.members role member || statement.joins role member) := by
  cases statement with
  | ensureRole role login =>
      cases hr : c.roles role with
      | some attributes =>
          simp only [Statement.run, hr, Option.some.injEq] at h
          subst h
          refine ⟨fun other => ?_, by simp [Statement.joins]⟩
          by_cases ho : other = role <;> simp [Statement.onRole, ho, hr]
      | none =>
          simp only [Statement.run, hr, Option.some.injEq] at h
          subst h
          refine ⟨fun other => ?_, by simp [Statement.joins]⟩
          by_cases ho : other = role <;> simp [Statement.onRole, assign, ho, hr]
  | restrictRole role =>
      obtain ⟨attributes, hr, rfl⟩ := Option.map_eq_some_iff.mp h
      refine ⟨fun other => ?_, by simp [Statement.joins]⟩
      by_cases ho : other = role <;> simp [Statement.onRole, assign, ho, hr]
  | grantRole role member =>
      simp only [Statement.run, Option.ite_none_right_eq_some] at h
      obtain ⟨-, hnext⟩ := h
      cases hnext
      simp [Statement.onRole, Statement.joins]
  | alterDatabaseOwner _ _ | grantConnect _ _ =>
      simp only [Statement.run, Option.ite_none_right_eq_some] at h
      simp [Statement.onRole, Statement.joins, onDatabase_keeps h.2]
  | _ =>
      simp only [Statement.run, Option.ite_none_right_eq_some] at h
      simp [Statement.onRole, Statement.joins, onSchema_roles h.2]

/-- No statement makes a role a superuser. -/
theorem run_unprivileged {c c' : Catalog} {statement : Statement} {role : String}
    (h : statement.run c = some c')
    (hrole : statement = .restrictRole role ∨ Unprivileged role c) : Unprivileged role c' := by
  intro attributes ha
  rw [(run_roles h).1 role] at ha
  rcases hrole with rfl | hrole
  · simp only [Statement.onRole, if_true, Option.map_eq_some_iff] at ha
    obtain ⟨a, -, rfl⟩ := ha
    rfl
  · cases statement with
    | ensureRole role' login =>
        simp only [Statement.onRole] at ha
        split at ha
        · cases hr : c.roles role with
          | none =>
              rw [hr] at ha
              cases ha
              rfl
          | some a =>
              rw [hr] at ha
              cases ha
              exact hrole _ hr
        · exact hrole attributes ha
    | restrictRole role' =>
        simp only [Statement.onRole] at ha
        split at ha
        · obtain ⟨a, -, rfl⟩ := Option.map_eq_some_iff.mp ha
          rfl
        · exact hrole attributes ha
    | _ => exact hrole attributes ha

theorem runAll_unprivileged {statements : List Statement} {c c' : Catalog} {role : String}
    (h : runAll c statements = some c')
    (hrole : .restrictRole role ∈ statements ∨ Unprivileged role c) : Unprivileged role c' := by
  induction statements generalizing c with
  | nil =>
      cases h
      simpa using hrole
  | cons statement statements ih =>
      obtain ⟨d, hd, hrest⟩ := runAll_cons.mp h
      refine ih hrest ?_
      rcases hrole with hmem | hrole
      · rcases List.mem_cons.mp hmem with rfl | hmem
        · exact .inr (run_unprivileged hd (.inl rfl))
        · exact .inl hmem
      · exact .inr (run_unprivileged hd (.inr hrole))

/-- A role that is a member of none acts as itself. -/
theorem acts_as_self {c : Catalog} {actor : String} (h : ∀ role, c.members role actor = false)
    {role : String} (hacts : c.ActsAs actor role) : role = actor := by
  induction hacts with
  | self => rfl
  | member _ hmember ih =>
      subst ih
      simp [h] at hmember

/-! ## Default privileges -/

/-- A schema after a change of a schema. -/
theorem onSchema_schemas {c c' : Catalog} {changed schema : String} {f : Schema → Option Schema}
    {s' : Schema} (h : c.onSchema changed f = some c') (hs' : c'.schemas schema = some s') :
    ∃ s, c.schemas schema = some s ∧ (s' = s ∨ changed = schema ∧ f s = some s') := by
  obtain ⟨s, t, hs, ht, rfl⟩ := onSchema_eq_some.mp h
  by_cases hc : schema = changed
  · subst hc
    simp only [assign, if_true, Option.some.injEq] at hs'
    exact ⟨s, hs, .inr ⟨rfl, hs' ▸ ht⟩⟩
  · simp only [assign, if_neg hc] at hs'
    exact ⟨s', hs', .inl rfl⟩

/-- The default privileges after a statement. -/
theorem run_defaults {c c' : Catalog} {statement : Statement} {schema : String} {s' : Schema}
    (h : statement.run c = some c') (hs' : c'.schemas schema = some s') :
    ∃ s, c.schemas schema = some s ∧ (s'.tableDefaults = s.tableDefaults ∨
      ∃ creator privileges roles, statement = .defaultTables creator schema privileges roles ∧
        s'.tableDefaults = fun other => if other = creator then
          (s.tableDefaults other).grant privileges roles else s.tableDefaults other) := by
  cases statement with
  | ensureRole role login =>
      simp only [Statement.run] at h
      split at h <;> cases h <;> exact ⟨s', hs', .inl rfl⟩
  | restrictRole role =>
      obtain ⟨attributes, -, rfl⟩ := Option.map_eq_some_iff.mp h
      exact ⟨s', hs', .inl rfl⟩
  | grantRole role member =>
      simp only [Statement.run, Option.ite_none_right_eq_some] at h
      obtain ⟨-, hnext⟩ := h
      cases hnext
      exact ⟨s', hs', .inl rfl⟩
  | alterDatabaseOwner _ _ | grantConnect _ _ =>
      simp only [Statement.run, Option.ite_none_right_eq_some] at h
      rw [(onDatabase_keeps h.2).1] at hs'
      exact ⟨s', hs', .inl rfl⟩
  | defaultTables creator changed privileges roles =>
      simp only [Statement.run, Option.ite_none_right_eq_some] at h
      obtain ⟨s, hs, rfl | ⟨rfl, hf⟩⟩ := onSchema_schemas h.2 hs'
      · exact ⟨s', hs, .inl rfl⟩
      · cases hf
        exact ⟨s, hs, .inr ⟨creator, privileges, roles, rfl, rfl⟩⟩
  | revokeTable _ _ _ _ | grantTable _ _ _ _ | grantColumn _ _ _ _ _ =>
      simp only [Statement.run, Option.ite_none_right_eq_some] at h
      obtain ⟨s, hs, rfl | ⟨-, hf⟩⟩ := onSchema_schemas h.2 hs'
      · exact ⟨s', hs, .inl rfl⟩
      · obtain ⟨table, -, rfl⟩ := onTable_eq_some.mp hf
        exact ⟨s, hs, .inl rfl⟩
  | _ =>
      simp only [Statement.run, Option.ite_none_right_eq_some] at h
      obtain ⟨s, hs, rfl | ⟨-, hf⟩⟩ := onSchema_schemas h.2 hs'
      · exact ⟨s', hs, .inl rfl⟩
      · cases hf
        exact ⟨s, hs, .inl rfl⟩

end ProdkitStorage.Security
