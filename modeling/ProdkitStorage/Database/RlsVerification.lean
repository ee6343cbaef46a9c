import Mathlib.Data.List.Dedup
import ProdkitStorage.Alembic.RlsRuns
import ProdkitStorage.Database.TenantIsolation
import ProdkitStorage.Security.Roles

/-!
# Verification of row security

`database/rls_verification.py` on the catalogs that the migrations of `alembic/rls.py` leave.

The server applies row security to a statement unless the role is a superuser, has `BYPASSRLS`, or
has the privileges of the owner of a table without `FORCE`.  The report compares the role with the
owner and not with the roles whose privileges it inherits, so it is sound for a role that inherits
none, or when it asks for `FORCE` (`rls_report_sound`).
-/

namespace ProdkitStorage.Database

open ProdkitStorage.Alembic
open ProdkitStorage.Foundation
open ProdkitStorage.Python
open ProdkitStorage.Security (postgresIdentifier)

/-! ## The report -/

/-- `RLSRoleStatus`. -/
structure RLSRoleStatus where
  role : String
  exists_ : Bool
  superuser : Bool
  bypassRls : Bool
deriving DecidableEq, Repr

/-- `RLSTableStatus`. -/
structure RLSTableStatus where
  table : String
  owner : Option String
  rlsEnabled : Bool
  forceRls : Bool
  policyCount : Nat
deriving DecidableEq, Repr

/-- `RLSVerificationReport`. -/
structure RLSVerificationReport where
  healthy : Bool
  role : RLSRoleStatus
  tables : List RLSTableStatus
  issues : List String
deriving DecidableEq, Repr

/-- `_ROLE_SQL` and `one_or_none()`.  Role names are unique. -/
def roleRow (c : PgCatalog) (role : String) : Option PgRole :=
  c.roles.find? fun row => row.rolname == role

/-- `_TABLE_SQL`. -/
def tableRows (c : PgCatalog) (schema : String) (tables : List String) : List PgClass :=
  (c.classes.filter fun cls =>
    cls.nspname == schema && decide (cls.relname ∈ tables) &&
      c.roles.any (·.rolname == cls.owner)).mergeSort fun a b => decide (a.relname ≤ b.relname)

/-- The row of a table, as the report keeps it. -/
def tableStatus (cls : PgClass) : RLSTableStatus where
  table := cls.relname
  owner := some cls.owner
  rlsEnabled := cls.relrowsecurity
  forceRls := cls.relforcerowsecurity
  policyCount := cls.policies.length

/-- The issues of a table. -/
def tableIssues (runtimeRole : String) (requireForceRls : Bool) (table : RLSTableStatus) :
    List String :=
  (if table.owner = some runtimeRole then
    ["runtime role owns RLS table " ++ pyRepr table.table] else []) ++
  (if !table.rlsEnabled then ["RLS is not enabled on table " ++ pyRepr table.table] else []) ++
  (if requireForceRls && !table.forceRls then
    ["FORCE ROW LEVEL SECURITY is not enabled on " ++ pyRepr table.table] else []) ++
  (if table.policyCount = 0 then ["table " ++ pyRepr table.table ++ " has no RLS policies"] else [])

/-- `_build_report`. -/
def buildReport (runtimeRole : String) (requestedTables : List String) (roleRow : Option PgRole)
    (tableRows : List PgClass) (requireForceRls : Bool) : RLSVerificationReport :=
  let role : RLSRoleStatus := {
    role := runtimeRole
    exists_ := roleRow.isSome
    superuser := roleRow.any PgRole.rolsuper
    bypassRls := roleRow.any PgRole.rolbypassrls }
  let tableStatuses := tableRows.map tableStatus
  let found := tableStatuses.map RLSTableStatus.table
  let missing := (requestedTables.dedup.filter fun table => decide (table ∉ found)).mergeSort
    fun a b => decide (a ≤ b)
  let issues :=
    (if !role.exists_ then ["runtime role " ++ pyRepr runtimeRole ++ " does not exist"] else []) ++
    (if role.superuser then ["runtime role is a superuser"] else []) ++
    (if role.bypassRls then ["runtime role has BYPASSRLS"] else []) ++
    missing.map (fun table => "table " ++ pyRepr table ++ " was not found") ++
    tableStatuses.flatMap (tableIssues runtimeRole requireForceRls)
  ⟨issues.isEmpty, role, tableStatuses, issues⟩

/-- `_validate_inputs`. -/
def validateInputs (runtimeRole : String) (tables : List String) (schema : String) :
    Except PyError Unit := do
  let _ ← postgresIdentifier runtimeRole
  let _ ← postgresIdentifier schema
  if tables.isEmpty then .error (.valueError "at least one table is required")
  else
    let _ ← tables.mapM postgresIdentifier
    return ()

/-- `verify_rls_sync`.  The async function executes the same statements. -/
def verifyRls (c : PgCatalog) (runtimeRole : String) (tables : List String)
    (schema : String := "public") (requireForceRls : Bool := false) :
    Except PyError RLSVerificationReport := do
  validateInputs runtimeRole tables schema
  return buildReport runtimeRole tables (roleRow c runtimeRole) (tableRows c schema tables)
    requireForceRls

/-! ## The server -/

/-- The role has the privileges of the other. -/
inductive HasPrivsOf (c : PgCatalog) (actor : String) : String → Prop where
  | self : HasPrivsOf c actor actor
  | member {role member : String} : HasPrivsOf c actor member → (role, member) ∈ c.inherits →
      HasPrivsOf c actor role

/-- The policies of the table apply to the statements of the role. -/
def RowSecurityApplies (c : PgCatalog) (actor : String) (cls : PgClass) : Prop :=
  cls.relrowsecurity = true ∧
    (∀ row, roleRow c actor = some row → row.rolsuper = false ∧ row.rolbypassrls = false) ∧
    (cls.relforcerowsecurity = true ∨ ¬HasPrivsOf c actor cls.owner)

/-- What a statement of a role on a table may touch.  `cell` is the tenant column that the policy
reads. -/
inductive Touches {Row : Type} (pg : Postgres) (c : PgCatalog) (actor : String) (cls : PgClass)
    (cell : Row → Option Uuid) (session : SessionSettings) (readOnly : Bool) (rows : List Row)
    (statement : Statement Row) : Access Row → Prop where
  /-- Row security does not apply. -/
  | bypassed (access : Access Row) : ¬RowSecurityApplies c actor cls →
      Touches pg c actor cls cell session readOnly rows statement access
  /-- It applies, and there is no policy. -/
  | denied : RowSecurityApplies c actor cls → cls.policies = [] →
      Touches pg c actor cls cell session readOnly rows statement ⟨[], []⟩
  /-- It applies, and there is one policy. -/
  | policed {access : Access Row} {policy : TenantPolicy} :
      RowSecurityApplies c actor cls → cls.policies = [policy] →
      executeStatement pg policy cell session readOnly rows statement = .ok access →
      Touches pg c actor cls cell session readOnly rows statement access

/-! ## What the report says -/

/-- A table as a healthy report asks for it. -/
structure Guarded (c : PgCatalog) (runtimeRole : String) (requireForceRls : Bool) (cls : PgClass) :
    Prop where
  known : ∃ row ∈ c.roles, row.rolname = cls.owner
  owner : cls.owner ≠ runtimeRole
  enabled : cls.relrowsecurity = true
  force : requireForceRls = true → cls.relforcerowsecurity = true
  policies : cls.policies ≠ []

theorem tableIssues_eq_nil {runtimeRole : String} {requireForceRls : Bool} {cls : PgClass} :
    tableIssues runtimeRole requireForceRls (tableStatus cls) = [] ↔
      cls.owner ≠ runtimeRole ∧ cls.relrowsecurity = true ∧
        (requireForceRls = true → cls.relforcerowsecurity = true) ∧ cls.policies ≠ [] := by
  simp [tableIssues, tableStatus, List.append_eq_nil_iff]

theorem mem_tableRows {c : PgCatalog} {schema : String} {tables : List String} {cls : PgClass} :
    cls ∈ tableRows c schema tables ↔ cls ∈ c.classes ∧ cls.nspname = schema ∧
      cls.relname ∈ tables ∧ ∃ row ∈ c.roles, row.rolname = cls.owner := by
  simp [tableRows, and_assoc]

/-- No check of the role fails. -/
def SoundRole (c : PgCatalog) (runtimeRole : String) : Prop :=
  ∃ row, roleRow c runtimeRole = some row ∧ row.rolsuper = false ∧ row.rolbypassrls = false

theorem buildReport_healthy {runtimeRole : String} {tables : List String} {row : Option PgRole}
    {rows : List PgClass} {requireForceRls : Bool} :
    (buildReport runtimeRole tables row rows requireForceRls).healthy = true ↔
      (∃ r, row = some r ∧ r.rolsuper = false ∧ r.rolbypassrls = false) ∧
        (∀ table ∈ tables, ∃ cls ∈ rows, cls.relname = table) ∧
          ∀ cls ∈ rows, tableIssues runtimeRole requireForceRls (tableStatus cls) = [] := by
  have hrole : ((if !row.isSome then ["runtime role " ++ pyRepr runtimeRole ++ " does not exist"]
        else []) ++ (if row.any PgRole.rolsuper then ["runtime role is a superuser"] else []) ++
      (if row.any PgRole.rolbypassrls then ["runtime role has BYPASSRLS"] else [])) = [] ↔
        ∃ r, row = some r ∧ r.rolsuper = false ∧ r.rolbypassrls = false := by
    cases row with
    | none => simp
    | some r => simp
  have hfound : ((tables.dedup.filter fun table => decide (table ∉
        (rows.map tableStatus).map RLSTableStatus.table)).mergeSort fun a b =>
          decide (a ≤ b)).map (fun table => "table " ++ pyRepr table ++ " was not found") = [] ↔
        ∀ table ∈ tables, ∃ cls ∈ rows, cls.relname = table := by
    rw [List.map_eq_nil_iff, ← List.length_eq_zero_iff, List.length_mergeSort,
      List.length_eq_zero_iff, List.filter_eq_nil_iff]
    simp [tableStatus]
  simp only [buildReport, List.isEmpty_iff]
  rw [List.append_eq_nil_iff, List.append_eq_nil_iff, hrole, hfound, List.flatMap_map,
    List.flatMap_eq_nil_iff, and_assoc]

theorem verifyRls_ok {c : PgCatalog} {runtimeRole schema : String} {tables : List String}
    {requireForceRls : Bool} {report : RLSVerificationReport}
    (h : verifyRls c runtimeRole tables schema requireForceRls = .ok report) :
    report = buildReport runtimeRole tables (roleRow c runtimeRole) (tableRows c schema tables)
      requireForceRls := by
  obtain ⟨_, -, hreturn⟩ := bind_eq_ok.mp h
  exact (Except.ok.inj hreturn).symm

variable {sha256Hex : String → String} {current setting : String}

/-- A role that inherits no other's privileges is subject to the policies of a guarded table. -/
theorem Guarded.applies {c : PgCatalog} {runtimeRole : String} {requireForceRls : Bool}
    {cls : PgClass} (hcls : Guarded c runtimeRole requireForceRls cls)
    (hrole : SoundRole c runtimeRole)
    (howner : requireForceRls = true ∨ ∀ owner, HasPrivsOf c runtimeRole owner →
      owner = runtimeRole) : RowSecurityApplies c runtimeRole cls := by
  obtain ⟨row, hrow, hsuper, hbypass⟩ := hrole
  refine ⟨hcls.enabled, ?_, ?_⟩
  · intro other hother
    obtain rfl := Option.some.inj (hrow.symm.trans hother)
    exact ⟨hsuper, hbypass⟩
  · rcases howner with hforce | hinherits
    · exact .inl (hcls.force hforce)
    · exact .inr fun hprivs => hcls.owner (hinherits _ hprivs)

/-- On every catalog the migrations leave, a report is healthy exactly when the role may not bypass
row security and every table is there, guarded, and not the role's.  Then, if it asked for `FORCE`
or the role inherits no privileges, no statement of the role on one of the tables touches a row
but those of the tenant whose text the session shows. -/
theorem rls_report_sound (pg : Postgres) {history : List Change} {c : PgCatalog}
    (hr : (databases sha256Hex current setting).Reaches history c) {runtimeRole schema : String}
    {tables : List String} {requireForceRls : Bool} {report : RLSVerificationReport}
    (hok : verifyRls c runtimeRole tables schema requireForceRls = .ok report) :
    (report.healthy = true ↔ SoundRole c runtimeRole ∧ ∀ table ∈ tables,
      ∃ cls ∈ c.classes, cls.nspname = schema ∧ cls.relname = table ∧
        Guarded c runtimeRole requireForceRls cls) ∧
    (report.healthy = true →
      (requireForceRls = true ∨ ∀ owner, HasPrivsOf c runtimeRole owner → owner = runtimeRole) →
        ∀ cls ∈ c.classes, cls.nspname = schema → cls.relname ∈ tables →
          ∀ (Row : Type) (cell : Row → Option Uuid) session readOnly rows statement access tenant,
            Shows (currentSetting session setting) tenant →
              Touches pg c runtimeRole cls cell session readOnly rows statement access →
                ∀ row ∈ access.read ++ access.written,
                  ∃ value, tenant = some value ∧ cell row = some value) := by
  obtain rfl := verifyRls_ok hok
  have hkeys := reaches_keys hr
  have hunique : ∀ a ∈ c.classes, ∀ b ∈ c.classes, a.nspname = b.nspname →
      a.relname = b.relname → a = b := fun a ha b hb hn hr =>
    List.inj_on_of_nodup_map hkeys ha hb (Prod.ext hn hr)
  have hexact : (buildReport runtimeRole tables (roleRow c runtimeRole) (tableRows c schema tables)
      requireForceRls).healthy = true ↔ SoundRole c runtimeRole ∧ ∀ table ∈ tables,
        ∃ cls ∈ c.classes, cls.nspname = schema ∧ cls.relname = table ∧
          Guarded c runtimeRole requireForceRls cls := by
    rw [buildReport_healthy]
    refine and_congr_right fun _ => ⟨?_, ?_⟩
    · rintro ⟨hfound, hissues⟩ table htable
      obtain ⟨cls, hcls, hname⟩ := hfound table htable
      obtain ⟨hmem, hschema, -, hknown⟩ := mem_tableRows.mp hcls
      obtain ⟨howner, henabled, hforce, hpolicies⟩ := tableIssues_eq_nil.mp (hissues cls hcls)
      exact ⟨cls, hmem, hschema, hname, hknown, howner, henabled, hforce, hpolicies⟩
    · intro hguarded
      refine ⟨fun table htable => ?_, fun cls hcls => ?_⟩
      · obtain ⟨cls, hmem, hschema, rfl, hguard⟩ := hguarded table htable
        exact ⟨cls, mem_tableRows.mpr ⟨hmem, hschema, htable, hguard.known⟩, rfl⟩
      · obtain ⟨hmem, hschema, htable, -⟩ := mem_tableRows.mp hcls
        obtain ⟨other, hother, hschema', hname, hguard⟩ := hguarded _ htable
        obtain rfl := hunique other hother cls hmem (hschema'.trans hschema.symm) hname
        exact tableIssues_eq_nil.mpr
          ⟨hguard.owner, hguard.enabled, hguard.force, hguard.policies⟩
  refine ⟨hexact, ?_⟩
  intro hhealthy howner cls hcls hschema htable Row cell session readOnly rows statement access
    tenant hshows htouches
  obtain ⟨hrole, hguarded⟩ := hexact.mp hhealthy
  obtain ⟨other, hother, hschema', hname, hguard⟩ := hguarded _ htable
  obtain rfl := hunique other hother cls hcls (hschema'.trans hschema.symm) hname
  have happlies := hguard.applies hrole howner
  have htenanted := (reaches_tenanted hr other hother).policies
  rw [if_pos hguard.enabled] at htenanted
  obtain ⟨policy, honly, -, hsetting⟩ := htenanted
  cases htouches with
  | bypassed _ hbypass => exact absurd happlies hbypass
  | denied _ hnone => exact absurd hnone hguard.policies
  | policed _ hpolicy hrun =>
      obtain rfl : _ = _ := (List.cons.inj (honly.symm.trans hpolicy)).1
      exact executeStatement_confined (hsetting ▸ hshows) hrun

/-- A database after a first migration. -/
def sampleCatalog : PgCatalog where
  classes := [⟨"public", "customers", "prodkit_owner", true, true,
    [⟨"customers_tenant_isolation", "\"customers\"", "tenant_id", "app.tenant_id"⟩]⟩]
  roles := [⟨"prodkit_owner", false, false⟩, ⟨"prodkit_runtime", false, false⟩]
  inherits := []

theorem sample_catalog : (databases id "public" "app.tenant_id").Reaches
    [.enable "customers" "tenant_id" none true, .createTable "public" "customers" "prodkit_owner",
      .roles] sampleCatalog := by
  have hempty : (databases id "public" "app.tenant_id").Reaches [] ⟨[], [], []⟩ := .init rfl
  have hroles := hempty.step (.roles sampleCatalog.roles [])
  have hcreate := hroles.step (.createTable "public" "customers" "prodkit_owner" (by decide)
    (by decide) (by simp))
  exact hcreate.step (.enable "customers" "tenant_id" none true rfl (by decide +kernel))

/-- A session that shows the tenant 1. -/
def tenantSession : SessionSettings :=
  setConfig (fun _ => none) "app.tenant_id" (Uuid.str 1)

theorem tenantSession_shows : Shows (currentSetting tenantSession "app.tenant_id") (some 1) :=
  .inr (.inr ⟨1, rfl, by rw [tenantSession, currentSetting, setConfig, if_pos rfl]⟩)

/-- The report of the migrated table is healthy, and the runtime role is confined to the tenant of
its session. -/
theorem rls_report_sound_customers : ∃ report,
    verifyRls sampleCatalog "prodkit_runtime" ["customers"] "public" true = .ok report ∧
      report.healthy = true ∧ ∀ cls ∈ sampleCatalog.classes, ∀ statement access,
        Touches samplePostgres sampleCatalog "prodkit_runtime" cls (id : Option Uuid → _)
          tenantSession false [some 1, some 2] statement access →
            ∀ row ∈ access.read ++ access.written, row = some 1 := by
  have hreport := rls_report_sound samplePostgres sample_catalog
    (show verifyRls sampleCatalog "prodkit_runtime" ["customers"] "public" true = .ok _ from rfl)
  have hhealthy : (buildReport "prodkit_runtime" ["customers"]
      (roleRow sampleCatalog "prodkit_runtime") (tableRows sampleCatalog "public" ["customers"])
        true).healthy = true := by decide +kernel
  refine ⟨_, rfl, hhealthy, fun cls hcls statement access htouches row hrow => ?_⟩
  obtain rfl := List.mem_singleton.mp hcls
  obtain ⟨value, htenant, hcell⟩ := hreport.2 hhealthy (.inl rfl) _ (by simp [sampleCatalog]) rfl
    (by simp) (Option Uuid) id tenantSession false [some 1, some 2] statement access (some 1)
    tenantSession_shows htouches row hrow
  obtain rfl := Option.some.inj htenant
  exact hcell

end ProdkitStorage.Database
