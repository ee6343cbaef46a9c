import ProdkitStorage.Config

/-!
# Tenant policies

`alembic/rls.py`.  A migration executes statements; each is kept in its parts, and
`Ddl.sql` is the text `op.execute` is given.  `sha256Hex` is
`hashlib.sha256(text.encode("utf-8")).hexdigest()`.
-/

namespace ProdkitStorage.Alembic

open ProdkitStorage.Python

/-- The policy `enable_tenant_rls` creates. -/
structure TenantPolicy where
  name : String
  qualifiedTable : String
  tenantColumn : String
  setting : String
deriving DecidableEq, Repr

/-- A statement of the migration. -/
inductive Ddl where
  | enableRowLevelSecurity (qualifiedTable : String)
  | forceRowLevelSecurity (qualifiedTable : String)
  | createPolicy (policy : TenantPolicy)
deriving DecidableEq, Repr

/-- The condition of the policy. -/
def TenantPolicy.condition (policy : TenantPolicy) : String :=
  "(\"" ++ policy.tenantColumn ++ "\" = NULLIF(current_setting('" ++ policy.setting ++
    "', true), '')::uuid)"

/-- The text of a statement. -/
def Ddl.sql : Ddl → String
  | .enableRowLevelSecurity table => "ALTER TABLE " ++ table ++ " ENABLE ROW LEVEL SECURITY"
  | .forceRowLevelSecurity table => "ALTER TABLE " ++ table ++ " FORCE ROW LEVEL SECURITY"
  | .createPolicy policy =>
      "CREATE POLICY \"" ++ policy.name ++ "\" ON " ++ policy.qualifiedTable ++
        "\n        USING " ++ policy.condition ++ "\n        WITH CHECK " ++ policy.condition

/-- `_POSTGRES_IDENTIFIER_LIMIT`. -/
def postgresIdentifierLimit : Nat := 63

/-- `^[A-Za-z_][A-Za-z0-9_]*$`, matched in full. -/
def isIdentifier (value : String) : Bool :=
  match value.toList with
  | [] => false
  | c :: cs => (c.isAlpha || c == '_') && cs.all fun c => c.isAlphanum || c == '_'

/-- `_identifier`. -/
def identifier (value : String) : Except PyError String :=
  if postgresIdentifierLimit < value.length ∨ ¬isIdentifier value then
    .error (.valueError ("unsafe SQL identifier: " ++ pyRepr value))
  else .ok value

/-- `_qualified_table`. -/
def qualifiedTable (table : String) (schema : Option String) : Except PyError String :=
  match schema with
  | none => .ok ("\"" ++ table ++ "\"")
  | some schema => do
      let schema ← identifier schema
      return "\"" ++ schema ++ "\".\"" ++ table ++ "\""

/-- `_policy_name`. -/
def policyName (sha256Hex : String → String) (table : String) : String :=
  let candidate := table ++ "_tenant_isolation"
  if candidate.length ≤ postgresIdentifierLimit then candidate
  else
    let digest := takeStr 10 (sha256Hex candidate)
    takeStr (postgresIdentifierLimit - digest.length - 1) candidate ++ "_" ++ digest

/-- `enable_tenant_rls`: the statements it executes. -/
def enableTenantRls (sha256Hex : String → String) (table : String)
    (tenantColumn : String := "tenant_id") (setting : String := "app.tenant_id")
    (schema : Option String := none) (force : Bool := true) : Except PyError (List Ddl) := do
  let table ← identifier table
  let tenantColumn ← identifier tenantColumn
  let qualifiedTable ← qualifiedTable table schema
  let policy := policyName sha256Hex table
  if !isSettingName setting then
    .error (.valueError ("unsafe PostgreSQL setting name: " ++ pyRepr setting))
  else
    return .enableRowLevelSecurity qualifiedTable ::
      (if force then [.forceRowLevelSecurity qualifiedTable] else []) ++
      [.createPolicy ⟨policy, qualifiedTable, tenantColumn, setting⟩]

/-- The one policy of a protected table compares with the setting it was given. -/
theorem enableTenantRls_policy {sha256Hex : String → String} {table tenantColumn setting : String}
    {schema : Option String} {force : Bool} {statements : List Ddl}
    (h : enableTenantRls sha256Hex table tenantColumn setting schema force = .ok statements)
    {policy : TenantPolicy} (hmem : .createPolicy policy ∈ statements) :
    policy.setting = setting ∧ policy.tenantColumn = tenantColumn := by
  obtain ⟨table', -, h⟩ := bind_eq_ok.mp h
  obtain ⟨column', hcolumn, h⟩ := bind_eq_ok.mp h
  obtain ⟨qualified, -, h⟩ := bind_eq_ok.mp h
  have hcolumn' : column' = tenantColumn := by
    unfold identifier at hcolumn
    split at hcolumn
    · cases hcolumn
    · exact (Except.ok.inj hcolumn).symm
  simp only at h
  split at h
  · cases h
  · obtain rfl := Except.ok.inj h
    cases force with
    | true =>
        simp only [if_true, List.cons_append, List.nil_append, List.mem_cons, reduceCtorEq,
          Ddl.createPolicy.injEq, List.not_mem_nil, or_false, false_or] at hmem
        subst hmem
        exact ⟨rfl, hcolumn'⟩
    | false =>
        simp only [Bool.false_eq_true, if_false, List.cons_append, List.nil_append, List.mem_cons,
          reduceCtorEq, Ddl.createPolicy.injEq, List.not_mem_nil, or_false, false_or] at hmem
        subst hmem
        exact ⟨rfl, hcolumn'⟩

end ProdkitStorage.Alembic
