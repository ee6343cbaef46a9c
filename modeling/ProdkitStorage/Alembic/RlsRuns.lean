import Mathlib.Data.List.Nodup
import ProdkitStorage.Alembic.Rls
import ProdkitStorage.Foundation.Transition

/-!
# Runs of tenant policy migrations

`enable_tenant_rls` and `disable_tenant_rls` on a catalog.  A migration runs in one transaction:
either all of its statements take effect or none does.  Owners, roles and memberships change
freely between the migrations.

`CREATE POLICY` fails when the table has a policy of that name, and `disable_tenant_rls` drops the
policy under the name `enable_tenant_rls` gave it, so a table has the tenant policy exactly while
row security is enabled on it (`Tenanted`), after any migrations.
-/

namespace ProdkitStorage.Alembic

open ProdkitStorage.Foundation (System)
open ProdkitStorage.Python

/-! ## Statements -/

/-- A statement of one of the two migrations. -/
inductive RlsStatement where
  | ddl (statement : Ddl)
  | dropPolicyIfExists (policy qualifiedTable : String)
  | disableRowLevelSecurity (qualifiedTable : String)
deriving DecidableEq, Repr

/-- The text `op.execute` is given. -/
def RlsStatement.sql : RlsStatement → String
  | .ddl statement => statement.sql
  | .dropPolicyIfExists policy table => "DROP POLICY IF EXISTS \"" ++ policy ++ "\" ON " ++ table
  | .disableRowLevelSecurity table => "ALTER TABLE " ++ table ++ " DISABLE ROW LEVEL SECURITY"

/-- `disable_tenant_rls`: the statements it executes. -/
def disableTenantRls (sha256Hex : String → String) (table : String)
    (schema : Option String := none) : Except PyError (List RlsStatement) := do
  let table ← identifier table
  let qualifiedTable ← qualifiedTable table schema
  let policy := policyName sha256Hex table
  return [.dropPolicyIfExists policy qualifiedTable, .disableRowLevelSecurity qualifiedTable]

/-! ## The catalog -/

/-- A row of `pg_class` for a table, with its policies. -/
structure PgClass where
  nspname : String
  relname : String
  owner : String
  relrowsecurity : Bool
  relforcerowsecurity : Bool
  policies : List TenantPolicy
deriving DecidableEq, Repr

/-- A row of `pg_roles`. -/
structure PgRole where
  rolname : String
  rolsuper : Bool
  rolbypassrls : Bool
deriving DecidableEq, Repr

/-- The catalog.  `inherits` are the memberships whose privileges the member inherits. -/
structure PgCatalog where
  classes : List PgClass
  roles : List PgRole
  /-- A role and its member. -/
  inherits : List (String × String)

/-- An identifier in quotes. -/
def quoted (name : String) : String := "\"" ++ name ++ "\""

/-- The text names the table, when `current` is the first schema of the search path. -/
def PgClass.named (current text : String) (cls : PgClass) : Bool :=
  text == quoted cls.nspname ++ "." ++ quoted cls.relname ||
    (cls.nspname == current && text == quoted cls.relname)

/-- The table a statement names. -/
def RlsStatement.table : RlsStatement → String
  | .ddl (.enableRowLevelSecurity table) => table
  | .ddl (.forceRowLevelSecurity table) => table
  | .ddl (.createPolicy policy) => policy.qualifiedTable
  | .dropPolicyIfExists _ table => table
  | .disableRowLevelSecurity table => table

/-- What a statement does to the table it names. -/
def RlsStatement.apply (cls : PgClass) : RlsStatement → Option PgClass
  | .ddl (.enableRowLevelSecurity _) => some { cls with relrowsecurity := true }
  | .ddl (.forceRowLevelSecurity _) => some { cls with relforcerowsecurity := true }
  | .ddl (.createPolicy policy) =>
      if cls.policies.any (·.name == policy.name) then none
      else some { cls with policies := cls.policies ++ [policy] }
  | .dropPolicyIfExists policy _ =>
      some { cls with policies := cls.policies.filter (·.name != policy) }
  | .disableRowLevelSecurity _ => some { cls with relrowsecurity := false }

/-- Run a statement.  `none` when the server rejects it. -/
def RlsStatement.run (current : String) (classes : List PgClass) (statement : RlsStatement) :
    Option (List PgClass) :=
  if classes.any (PgClass.named current statement.table) then
    classes.mapM fun cls =>
      if cls.named current statement.table then statement.apply cls else some cls
  else none

/-- Run the statements of a migration. -/
def runMigration (current : String) (classes : List PgClass) (statements : List RlsStatement) :
    Option (List PgClass) :=
  statements.foldlM (RlsStatement.run current) classes

/-! ## Runs -/

/-- What is done to a database. -/
inductive Change where
  | enable (table tenantColumn : String) (schema : Option String) (force : Bool)
  | disable (table : String) (schema : Option String)
  | createTable (schema table owner : String)
  | dropTable (schema table : String)
  | alterOwner (schema table owner : String)
  /-- Roles are created, altered, dropped or granted. -/
  | roles

/-- The new table. -/
def newTable (schema table owner : String) : PgClass := ⟨schema, table, owner, false, false, []⟩

/-- One change.  Every migration names the same setting, as the application does. -/
inductive Changes (sha256Hex : String → String) (current setting : String) :
    PgCatalog → Change → PgCatalog → Prop where
  | enable {c : PgCatalog} {classes : List PgClass} {statements : List Ddl}
      (table tenantColumn : String) (schema : Option String) (force : Bool) :
      enableTenantRls sha256Hex table tenantColumn setting schema force = .ok statements →
      runMigration current c.classes (statements.map .ddl) = some classes →
      Changes sha256Hex current setting c (.enable table tenantColumn schema force)
        { c with classes := classes }
  | disable {c : PgCatalog} {classes : List PgClass} {statements : List RlsStatement}
      (table : String) (schema : Option String) :
      disableTenantRls sha256Hex table schema = .ok statements →
      runMigration current c.classes statements = some classes →
      Changes sha256Hex current setting c (.disable table schema) { c with classes := classes }
  | createTable {c : PgCatalog} (schema table owner : String) :
      isIdentifier schema = true → isIdentifier table = true →
      (∀ cls ∈ c.classes, ¬(cls.nspname = schema ∧ cls.relname = table)) →
      Changes sha256Hex current setting c (.createTable schema table owner)
        { c with classes := c.classes ++ [newTable schema table owner] }
  | dropTable {c : PgCatalog} (schema table : String) :
      Changes sha256Hex current setting c (.dropTable schema table)
        { c with classes := c.classes.filter fun cls =>
            !(cls.nspname == schema && cls.relname == table) }
  | alterOwner {c : PgCatalog} (schema table owner : String) :
      Changes sha256Hex current setting c (.alterOwner schema table owner)
        { c with classes := c.classes.map fun cls =>
            if cls.nspname = schema ∧ cls.relname = table then { cls with owner := owner }
            else cls }
  | roles {c : PgCatalog} (roles : List PgRole) (inherits : List (String × String)) :
      Changes sha256Hex current setting c .roles { c with roles := roles, inherits := inherits }

/-- The databases, from one without tables. -/
def databases (sha256Hex : String → String) (current setting : String) :
    System PgCatalog Change where
  init c := c.classes = []
  step := Changes sha256Hex current setting

/-- A table has the tenant policy, and no other, exactly while row security is enabled on it. -/
structure Tenanted (sha256Hex : String → String) (setting : String) (cls : PgClass) : Prop where
  schema : isIdentifier cls.nspname = true
  table : isIdentifier cls.relname = true
  policies : if cls.relrowsecurity then ∃ policy, cls.policies = [policy] ∧
      policy.name = policyName sha256Hex cls.relname ∧ policy.setting = setting
    else cls.policies = []

/-! ## Names -/

theorem isIdentifier_noQuote {name : String} (h : isIdentifier name = true) :
    '"' ∉ name.toList := by
  intro hmem
  unfold isIdentifier at h
  split at h
  · cases h
  · next c cs hname =>
      rw [hname] at hmem
      rw [Bool.and_eq_true, List.all_eq_true] at h
      rcases List.mem_cons.mp hmem with rfl | hmem
      · exact absurd h.1 (by decide)
      · exact absurd (h.2 '"' hmem) (by decide)

theorem quoted_toList (name : String) : (quoted name).toList = '"' :: (name.toList ++ ['"']) := by
  simp [quoted]

/-- What stands before the first quote. -/
theorem before_quote_inj {a b x y : List Char} (ha : '"' ∉ a) (hb : '"' ∉ b)
    (h : a ++ '"' :: x = b ++ '"' :: y) : a = b ∧ x = y := by
  induction a generalizing b with
  | nil =>
      cases b with
      | nil => exact ⟨rfl, (List.cons.inj h).2⟩
      | cons c b => exact absurd (List.cons.inj h).1 fun hc => hb (hc ▸ List.mem_cons_self)
  | cons c a ih =>
      cases b with
      | nil => exact absurd (List.cons.inj h).1 fun hc => ha (hc ▸ List.mem_cons_self)
      | cons d b =>
          obtain ⟨rfl, htail⟩ := List.cons.inj h
          obtain ⟨rfl, hrest⟩ := ih (fun hm => ha (List.mem_cons_of_mem _ hm))
            (fun hm => hb (List.mem_cons_of_mem _ hm)) htail
          exact ⟨rfl, hrest⟩

/-- Two names in quotes, with what follows. -/
theorem quoted_append_inj {a b x y : String} (ha : isIdentifier a = true)
    (hb : isIdentifier b = true) (h : quoted a ++ x = quoted b ++ y) : a = b ∧ x = y := by
  have htext := congrArg String.toList h
  simp only [String.toList_append, quoted_toList, List.cons_append, List.append_assoc,
    List.cons.injEq, true_and, List.nil_append] at htext
  obtain ⟨hname, hrest⟩ :=
    before_quote_inj (isIdentifier_noQuote ha) (isIdentifier_noQuote hb) htext
  exact ⟨String.toList_inj.mp hname, String.toList_inj.mp hrest⟩

theorem qualifiedTable_ok {table text : String} {schema : Option String}
    (h : qualifiedTable table schema = .ok text) :
    text = quoted table ++ "" ∨
      ∃ s, isIdentifier s = true ∧ text = quoted s ++ ("." ++ (quoted table ++ "")) := by
  cases schema with
  | none =>
      cases h
      exact .inl (by simp [quoted])
  | some s =>
      obtain ⟨s', hs, h⟩ := bind_eq_ok.mp h
      unfold identifier at hs
      split at hs
      · cases hs
      · next hvalid =>
          cases hs
          cases h
          simp only [not_or, not_not] at hvalid
          exact .inr ⟨s, hvalid.2, String.toList_inj.mp (by simp [quoted])⟩

/-- The text that a migration makes of its table names a table of that name. -/
theorem named_relname {current table text : String} {schema : Option String} {cls : PgClass}
    (htable : isIdentifier table = true) (htext : qualifiedTable table schema = .ok text)
    (hschema : isIdentifier cls.nspname = true) (hname : isIdentifier cls.relname = true)
    (hnamed : cls.named current text = true) : cls.relname = table := by
  have hform : text = quoted cls.relname ++ "" ∨
      text = quoted cls.nspname ++ ("." ++ (quoted cls.relname ++ "")) := by
    simp only [PgClass.named, Bool.or_eq_true, Bool.and_eq_true, beq_iff_eq] at hnamed
    rcases hnamed with h | ⟨-, h⟩
    · exact .inr (by rw [h, String.append_assoc, String.append_empty])
    · exact .inl (by rw [h, String.append_empty])
  rcases qualifiedTable_ok htext with rfl | ⟨s, hs, rfl⟩ <;> rcases hform with h | h
  · exact (quoted_append_inj htable hname h).1.symm
  · have hrest := (quoted_append_inj htable hschema h).2
    simp [String.ext_iff] at hrest
  · have hrest := (quoted_append_inj hs hname h).2
    simp [String.ext_iff] at hrest
  · have hrest := (quoted_append_inj hs hschema h).2
    have hquoted := String.append_right_inj "." |>.mp hrest
    exact (quoted_append_inj htable hname hquoted).1.symm

/-! ## The invariant -/

theorem mem_mapM_option {α β : Type} {f : α → Option β} {items : List α} {results : List β}
    (h : items.mapM f = some results) : ∀ b ∈ results, ∃ a ∈ items, f a = some b := by
  induction items generalizing results with
  | nil =>
      cases h
      simp
  | cons item items ih =>
      simp only [List.mapM_cons, Option.bind_eq_bind, Option.bind_eq_some_iff, Option.pure_def,
        Option.some.injEq] at h
      obtain ⟨b, hb, rest, hrest, rfl⟩ := h
      intro other hother
      rcases List.mem_cons.mp hother with rfl | hother
      · exact ⟨item, List.mem_cons_self, hb⟩
      · obtain ⟨a, ha, hfa⟩ := ih hrest other hother
        exact ⟨a, List.mem_cons_of_mem _ ha, hfa⟩

/-- A statement changes neither the schema nor the name of a table. -/
theorem apply_named {cls cls' : PgClass} {statement : RlsStatement}
    (h : statement.apply cls = some cls') (current text : String) :
    cls'.named current text = cls.named current text := by
  cases statement with
  | ddl statement =>
      cases statement with
      | createPolicy policy =>
          simp only [RlsStatement.apply] at h
          split at h
          · cases h
          · cases h
            rfl
      | _ =>
          cases h
          rfl
  | _ =>
      cases h
      rfl

/-- A table after a migration all of whose statements name `text`. -/
theorem runMigration_mem {current : String} (text : String) {statements : List RlsStatement}
    (htext : ∀ statement ∈ statements, statement.table = text) {classes classes' : List PgClass}
    (h : runMigration current classes statements = some classes') :
    ∀ cls' ∈ classes', ∃ cls ∈ classes,
      if cls.named current text then statements.foldlM RlsStatement.apply cls = some cls'
      else cls' = cls := by
  induction statements generalizing classes with
  | nil =>
      cases h
      exact fun cls' hcls => ⟨cls', hcls, by simp⟩
  | cons statement statements ih =>
      simp only [runMigration, List.foldlM_cons, Option.bind_eq_bind, Option.bind_eq_some_iff] at h
      obtain ⟨between, hfirst, hrest⟩ := h
      intro cls' hcls'
      obtain ⟨cls, hcls, hlater⟩ :=
        ih (fun later hlater => htext later (List.mem_cons_of_mem _ hlater)) hrest cls' hcls'
      unfold RlsStatement.run at hfirst
      split at hfirst
      · obtain ⟨before, hbefore, hstep⟩ := mem_mapM_option hfirst cls hcls
        rw [htext statement List.mem_cons_self] at hstep
        refine ⟨before, hbefore, ?_⟩
        split at hstep
        · next hnamed =>
            rw [apply_named hstep, if_pos hnamed] at hlater
            rw [if_pos hnamed, List.foldlM_cons, hstep]
            exact hlater
        · next hnamed =>
            cases hstep
            rw [if_neg hnamed] at hlater ⊢
            exact hlater
      · cases hfirst

theorem identifier_ok {value name : String} (h : identifier value = .ok name) :
    name = value ∧ isIdentifier value = true := by
  unfold identifier at h
  split at h
  · cases h
  · next hvalid =>
      simp only [not_or, not_not] at hvalid
      exact ⟨(Except.ok.inj h).symm, hvalid.2⟩

variable {sha256Hex : String → String} {current setting : String}

/-- The statements of `enable_tenant_rls`. -/
theorem enableTenantRls_ok {table tenantColumn : String} {schema : Option String} {force : Bool}
    {statements : List Ddl}
    (h : enableTenantRls sha256Hex table tenantColumn setting schema force = .ok statements) :
    isIdentifier table = true ∧ ∃ text, qualifiedTable table schema = .ok text ∧
      statements = .enableRowLevelSecurity text ::
        (if force then [.forceRowLevelSecurity text] else []) ++
          [.createPolicy ⟨policyName sha256Hex table, text, tenantColumn, setting⟩] := by
  obtain ⟨table', htable, hrest⟩ := bind_eq_ok.mp h
  obtain ⟨column', hcolumn, hrest⟩ := bind_eq_ok.mp hrest
  obtain ⟨text, htext, hreturn⟩ := bind_eq_ok.mp hrest
  obtain ⟨rfl, hvalid⟩ := identifier_ok htable
  obtain ⟨rfl, -⟩ := identifier_ok hcolumn
  simp only at hreturn
  split at hreturn
  · cases hreturn
  · exact ⟨hvalid, text, htext, (Except.ok.inj hreturn).symm⟩

/-- The statements of `disable_tenant_rls`. -/
theorem disableTenantRls_ok {table : String} {schema : Option String}
    {statements : List RlsStatement}
    (h : disableTenantRls sha256Hex table schema = .ok statements) :
    isIdentifier table = true ∧ ∃ text, qualifiedTable table schema = .ok text ∧
      statements = [.dropPolicyIfExists (policyName sha256Hex table) text,
        .disableRowLevelSecurity text] := by
  obtain ⟨table', htable, hrest⟩ := bind_eq_ok.mp h
  obtain ⟨text, htext, hreturn⟩ := bind_eq_ok.mp hrest
  obtain ⟨rfl, hvalid⟩ := identifier_ok htable
  exact ⟨hvalid, text, htext, (Except.ok.inj hreturn).symm⟩

/-- Enabling creates the policy of a table that has none; on any other table it fails. -/
theorem Tenanted.enable {cls cls' : PgClass} (hcls : Tenanted sha256Hex setting cls)
    {text tenantColumn : String} {force : Bool}
    (h : ((Ddl.enableRowLevelSecurity text ::
        (if force then [Ddl.forceRowLevelSecurity text] else []) ++ [Ddl.createPolicy
          ⟨policyName sha256Hex cls.relname, text, tenantColumn, setting⟩]).map
            RlsStatement.ddl).foldlM RlsStatement.apply cls = some cls') :
    cls.relrowsecurity = false ∧ cls'.relrowsecurity = true ∧ Tenanted sha256Hex setting cls' := by
  have hpolicies := hcls.policies
  cases hsecurity : cls.relrowsecurity with
  | true =>
      rw [if_pos hsecurity] at hpolicies
      obtain ⟨policy, honly, hname, -⟩ := hpolicies
      cases force <;> simp [RlsStatement.apply, honly, hname] at h
  | false =>
      rw [if_neg (by simp [hsecurity])] at hpolicies
      cases force <;>
      · simp [RlsStatement.apply, hpolicies] at h
        subst h
        exact ⟨rfl, rfl, hcls.schema, hcls.table, by simp⟩

/-- Disabling drops the policy. -/
theorem Tenanted.disable {cls cls' : PgClass} (hcls : Tenanted sha256Hex setting cls)
    {text : String}
    (h : [RlsStatement.dropPolicyIfExists (policyName sha256Hex cls.relname) text,
        .disableRowLevelSecurity text].foldlM RlsStatement.apply cls = some cls') :
    cls'.relrowsecurity = false ∧ Tenanted sha256Hex setting cls' := by
  have hpolicies := hcls.policies
  simp [RlsStatement.apply] at h
  subst h
  refine ⟨rfl, hcls.schema, hcls.table, ?_⟩
  split at hpolicies
  · obtain ⟨policy, honly, hname, -⟩ := hpolicies
    simp [honly, hname]
  · simp [hpolicies]

/-- Every change keeps the tables tenanted. -/
theorem changes_tenanted {c c' : PgCatalog} {change : Change}
    (h : Changes sha256Hex current setting c change c')
    (hc : ∀ cls ∈ c.classes, Tenanted sha256Hex setting cls) :
    ∀ cls ∈ c'.classes, Tenanted sha256Hex setting cls := by
  cases h with
  | enable table tenantColumn schema force henable hrun =>
      obtain ⟨htable, text, htext, rfl⟩ := enableTenantRls_ok henable
      intro cls' hcls'
      have hnames : ∀ statement ∈ (Ddl.enableRowLevelSecurity text ::
          (if force then [Ddl.forceRowLevelSecurity text] else []) ++ [Ddl.createPolicy
            ⟨policyName sha256Hex table, text, tenantColumn, setting⟩]).map RlsStatement.ddl,
          statement.table = text := by
        cases force <;> simp [RlsStatement.table]
      obtain ⟨cls, hcls, hstep⟩ := runMigration_mem _ hnames hrun cls' hcls'
      split at hstep
      · next hnamed =>
          have htenanted := hc cls hcls
          have hname := named_relname htable htext htenanted.schema htenanted.table hnamed
          rw [← hname] at hstep
          exact (htenanted.enable hstep).2.2
      · exact hstep ▸ hc cls hcls
  | disable table schema hdisable hrun =>
      obtain ⟨htable, text, htext, rfl⟩ := disableTenantRls_ok hdisable
      intro cls' hcls'
      obtain ⟨cls, hcls, hstep⟩ :=
        runMigration_mem text (by simp [RlsStatement.table]) hrun cls' hcls'
      split at hstep
      · next hnamed =>
          have htenanted := hc cls hcls
          have hname := named_relname htable htext htenanted.schema htenanted.table hnamed
          rw [← hname] at hstep
          exact (htenanted.disable hstep).2
      · exact hstep ▸ hc cls hcls
  | createTable schema table owner hschema htable _ =>
      intro cls hcls
      rcases List.mem_append.mp hcls with hcls | hcls
      · exact hc cls hcls
      · obtain rfl := List.mem_singleton.mp hcls
        exact ⟨hschema, htable, rfl⟩
  | dropTable schema table =>
      intro cls hcls
      exact hc cls (List.mem_filter.mp hcls).1
  | alterOwner schema table owner =>
      intro cls hcls
      obtain ⟨before, hbefore, rfl⟩ := List.mem_map.mp hcls
      have htenanted := hc before hbefore
      split
      · exact ⟨htenanted.schema, htenanted.table, htenanted.policies⟩
      · exact htenanted
  | roles roles inherits => exact hc

theorem reaches_tenanted {history : List Change} {c : PgCatalog}
    (h : (databases sha256Hex current setting).Reaches history c) :
    ∀ cls ∈ c.classes, Tenanted sha256Hex setting cls := by
  refine h.invariant (I := fun _ c => ∀ cls ∈ c.classes, Tenanted sha256Hex setting cls) ?_ ?_
  · intro c hempty cls hcls
    have hnone : c.classes = [] := hempty
    rw [hnone] at hcls
    cases hcls
  · intro _ _ _ _ _ hc hstep
    exact changes_tenanted hstep hc

/-! ## One table of a name -/

/-- The schema and the name of a table. -/
def PgClass.key (cls : PgClass) : String × String := (cls.nspname, cls.relname)

theorem apply_key {cls cls' : PgClass} {statement : RlsStatement}
    (h : statement.apply cls = some cls') : cls'.key = cls.key := by
  cases statement with
  | ddl statement =>
      cases statement with
      | createPolicy policy =>
          simp only [RlsStatement.apply] at h
          split at h
          · cases h
          · cases h
            rfl
      | _ =>
          cases h
          rfl
  | _ =>
      cases h
      rfl

theorem mapM_keys {f : PgClass → Option PgClass} (hf : ∀ cls cls', f cls = some cls' →
    cls'.key = cls.key) {classes classes' : List PgClass} (h : classes.mapM f = some classes') :
    classes'.map PgClass.key = classes.map PgClass.key := by
  induction classes generalizing classes' with
  | nil =>
      cases h
      rfl
  | cons cls classes ih =>
      simp only [List.mapM_cons, Option.bind_eq_bind, Option.bind_eq_some_iff, Option.pure_def,
        Option.some.injEq] at h
      obtain ⟨cls', hcls, rest, hrest, rfl⟩ := h
      rw [List.map_cons, List.map_cons, hf cls cls' hcls, ih hrest]

theorem runMigration_keys {statements : List RlsStatement} {classes classes' : List PgClass}
    (h : runMigration current classes statements = some classes') :
    classes'.map PgClass.key = classes.map PgClass.key := by
  induction statements generalizing classes with
  | nil =>
      cases h
      rfl
  | cons statement statements ih =>
      simp only [runMigration, List.foldlM_cons, Option.bind_eq_bind, Option.bind_eq_some_iff] at h
      obtain ⟨between, hfirst, hrest⟩ := h
      refine (ih hrest).trans ?_
      unfold RlsStatement.run at hfirst
      split at hfirst
      · refine mapM_keys (fun cls cls' hcls => ?_) hfirst
        split at hcls
        · exact apply_key hcls
        · exact congrArg PgClass.key (Option.some.inj hcls).symm
      · cases hfirst

theorem reaches_keys {history : List Change} {c : PgCatalog}
    (h : (databases sha256Hex current setting).Reaches history c) :
    (c.classes.map PgClass.key).Nodup := by
  refine h.invariant (I := fun _ c => (c.classes.map PgClass.key).Nodup) ?_ ?_
  · intro c hempty
    have hnone : c.classes = [] := hempty
    simp [hnone]
  · intro _ c _ c' _ hc hstep
    cases hstep with
    | enable table tenantColumn schema force _ hrun => exact runMigration_keys hrun ▸ hc
    | disable table schema _ hrun => exact runMigration_keys hrun ▸ hc
    | createTable schema table owner _ _ hfresh =>
        rw [List.map_append, List.nodup_append]
        refine ⟨hc, by simp, ?_⟩
        intro key hkey other hother hsame
        obtain ⟨cls, hcls, rfl⟩ := List.mem_map.mp hkey
        obtain rfl := List.mem_singleton.mp hother
        exact hfresh cls hcls (Prod.mk.inj hsame)
    | dropTable schema table => exact hc.sublist (List.filter_sublist.map _)
    | alterOwner schema table owner =>
        rw [List.map_map]
        have hkeys : (PgClass.key ∘ fun cls : PgClass =>
            if cls.nspname = schema ∧ cls.relname = table then { cls with owner := owner }
            else cls) = PgClass.key := by
          funext cls
          by_cases hcls : cls.nspname = schema ∧ cls.relname = table
          · rw [Function.comp_apply, if_pos hcls]
            rfl
          · rw [Function.comp_apply, if_neg hcls]
        rw [hkeys]
        exact hc
    | roles roles inherits => exact hc

end ProdkitStorage.Alembic
