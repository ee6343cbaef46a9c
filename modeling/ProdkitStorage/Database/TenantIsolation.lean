import ProdkitStorage.Database.Tenant

/-!
# Tenant isolation

The tenant setting of a connection `Shows` nothing but the tenant of the request
context its transaction began under: it is unset, empty, or that tenant's text.
The hook overwrites what an earlier transaction left, and the other two settings
it installs afterwards do not touch the tenant setting while their names differ
from it.  They are looked up without regard to case, so an actor setting spelt in
capitals can overwrite the tenant.
-/

namespace ProdkitStorage.Database

open ProdkitStorage.Alembic (Ddl TenantPolicy enableTenantRls)
open ProdkitStorage.Foundation
open ProdkitStorage.Python

variable {Row : Type} {pg : Postgres} {settings : StorageSettings} {policy : TenantPolicy}
  {cell : Row → Option Uuid}

/-- The text is the tenant's, or shows no tenant. -/
def Shows (text : Option String) (tenant : Option Uuid) : Prop :=
  text = none ∨ text = some "" ∨ ∃ value, tenant = some value ∧ text = some value.str

/-- The names of the actor and request settings differ from the tenant setting. -/
def TenantSettingApart (settings : StorageSettings) : Prop :=
  foldName settings.rlsActorSetting ≠ foldName settings.rlsTenantSetting ∧
    foldName settings.rlsRequestSetting ≠ foldName settings.rlsTenantSetting

/-- A setting that shows no other tenant admits the rows of the tenant alone. -/
theorem Shows.policyTenant (pg : Postgres) {session : SessionSettings} {name : String}
    {tenant : Option Uuid}
    (h : Shows (currentSetting session name) tenant) :
    policyTenant pg session name = .ok none ∨
      ∃ value, tenant = some value ∧ policyTenant pg session name = .ok (some value) := by
  unfold Database.policyTenant
  rcases h with h | h | ⟨value, htenant, h⟩
  · exact .inl (by rw [h])
  · exact .inl (by rw [h]; rfl)
  · rw [h]
    by_cases hempty : value.str = ""
    · exact .inl (by simp [hempty])
    · exact .inr ⟨value, htenant, by simp [hempty, pg.castUuid_str]⟩

/-- The policy admits a row when its tenant column is the tenant of the setting. -/
theorem rowPolicy_using {tenant : Option Uuid} {row : Row}
    (h : (rowPolicy tenant cell).using_ row = .true) :
    ∃ value, tenant = some value ∧ cell row = some value := by
  obtain ⟨a, b, ha, hb, hab⟩ := Truth.compare_eq_true.mp h
  obtain rfl := eq_of_beq hab
  exact ⟨a, hb, ha⟩

/-- A statement touches rows of the shown tenant only. -/
theorem executeStatement_confined {session : SessionSettings} {readOnly : Bool} {rows : List Row}
    {statement : Statement Row} {access : Access Row} {tenant : Option Uuid}
    (hshows : Shows (currentSetting session policy.setting) tenant)
    (h : executeStatement pg policy cell session readOnly rows statement = .ok access) :
    ∀ row ∈ access.read ++ access.written,
      ∃ value, tenant = some value ∧ cell row = some value := by
  unfold executeStatement at h
  split at h
  · cases h
  · obtain ⟨shown, hshown, h⟩ := bind_eq_ok.mp h
    split at h
    · cases h
    · rename_i access' after hrun
      obtain rfl := Except.ok.inj h
      obtain ⟨hread, hwritten⟩ := Statement.run_confined hrun
      have hadmitted : ∀ row, (rowPolicy shown cell).using_ row = .true →
          ∃ value, tenant = some value ∧ cell row = some value := by
        intro row hrow
        obtain ⟨value, rfl, hcell⟩ := rowPolicy_using hrow
        rcases hshows.policyTenant pg with hnone | ⟨value', htenant, hsome⟩
        · rw [hnone] at hshown
          cases hshown
        · rw [hsome] at hshown
          simp only [Except.ok.injEq, Option.some.injEq] at hshown
          exact ⟨value, hshown ▸ htenant, hcell⟩
      intro row hrow
      rcases List.mem_append.mp hrow with hrow | hrow
      · exact hadmitted row (hread row hrow)
      · exact hadmitted row (hwritten row hrow)

/-! ## The hook -/

theorem currentSetting_setConfig_other {session : SessionSettings} {name other value : String}
    (h : foldName other ≠ foldName name) :
    currentSetting (setConfig session other value) name = currentSetting session name :=
  if_neg (Ne.symm h)

theorem currentSetting_setConfig_self (session : SessionSettings) (name value : String) :
    currentSetting (setConfig session name value) name = some value :=
  if_pos rfl

/-- The text the hook installs for the tenant shows the tenant of the context. -/
theorem shows_contextText (tenant : Option Uuid) :
    Shows (some (contextText Uuid.str tenant)) tenant := by
  cases tenant with
  | none => exact .inr (.inl rfl)
  | some value => exact .inr (.inr ⟨value, rfl, rfl⟩)

/-- After the hook the tenant setting shows the tenant of the context, or what it showed. -/
theorem applyContextAfterBegin_shows (hapart : TenantSettingApart settings) {readOnly : Bool}
    {context : RequestContext} {before connection : Connection} {outcome : Except PyError Unit}
    (hbefore : Shows (currentSetting before.settings settings.rlsTenantSetting) none)
    (h : applyContextAfterBegin (some settings) readOnly context before = (connection, outcome)) :
    Shows (currentSetting connection.settings settings.rlsTenantSetting) context.tenantId := by
  have hkept : Shows (currentSetting before.settings settings.rlsTenantSetting)
      context.tenantId := by
    rcases hbefore with h | h | ⟨value, h, -⟩
    · exact .inl h
    · exact .inr (.inl h)
    · cases h
  have hreadOnly : (if readOnly then { before with transaction := some true }
      else before).settings = before.settings := by
    cases readOnly with
    | true => rfl
    | false => rfl
  simp only [applyContextAfterBegin] at h
  split at h
  · obtain ⟨rfl, -⟩ := Prod.mk.inj h
    rwa [hreadOnly]
  · split at h
    · obtain ⟨rfl, -⟩ := Prod.mk.inj h
      rwa [hreadOnly]
    · obtain ⟨rfl, -⟩ := Prod.mk.inj h
      simp only [contextValues, List.foldl_cons, List.foldl_nil]
      rw [currentSetting_setConfig_other hapart.2, currentSetting_setConfig_other hapart.1,
        currentSetting_setConfig_self]
      exact shows_contextText context.tenantId

/-- Where a tenant is required the hook raises without one. -/
theorem applyContextAfterBegin_required (henabled : settings.tenantRlsEnabled = true)
    (hrequired : settings.tenantRequired = true) {readOnly : Bool} {context : RequestContext}
    (hcontext : context.tenantId = none) (before : Connection) :
    (applyContextAfterBegin (some settings) readOnly context before).2 =
      .error (.tenantContextError
        "a tenant context is required for this database transaction") := by
  simp [applyContextAfterBegin, henabled, hrequired, hcontext]

/-! ## Runs -/

/-- Every connection shows at most the tenant its transaction began under, and none between
transactions. -/
def PoolShows (settings : StorageSettings) (history : List (Event Row)) (pool : Pool) : Prop :=
  ∀ name, match (pool name).transaction with
    | none => Shows (currentSetting (pool name).settings settings.rlsTenantSetting) none
    | some _ => ∃ context, beganUnder name history = some context ∧
        Shows (currentSetting (pool name).settings settings.rlsTenantSetting) context.tenantId

/-- The hook leaves a transaction open. -/
theorem applyContextAfterBegin_transaction {info : Option StorageSettings} {readOnly : Bool}
    {context : RequestContext} {before connection : Connection} {outcome : Except PyError Unit}
    (hopen : before.transaction ≠ none)
    (h : applyContextAfterBegin info readOnly context before = (connection, outcome)) :
    ∃ mode, connection.transaction = some mode := by
  refine Option.ne_none_iff_exists'.mp ?_
  have hreadOnly : (if readOnly then { before with transaction := some true }
      else before).transaction ≠ none := by
    cases readOnly with
    | true => simp
    | false => exact hopen
  cases info with
  | none =>
      obtain ⟨rfl, -⟩ := Prod.mk.inj h
      exact hopen
  | some settings =>
      simp only [applyContextAfterBegin] at h
      split at h
      · obtain ⟨rfl, -⟩ := Prod.mk.inj h
        exact hreadOnly
      · split at h
        · obtain ⟨rfl, -⟩ := Prod.mk.inj h
          exact hreadOnly
        · obtain ⟨rfl, -⟩ := Prod.mk.inj h
          exact hreadOnly

theorem step_poolShows (hapart : TenantSettingApart settings) {history : List (Event Row)}
    {pool after : Pool} {event : Event Row} (h : PoolShows settings history pool)
    (hstep : Step pg settings policy cell pool event after) :
    PoolShows settings (event :: history) after := by
  cases hstep with
  | @begin_ connection outcome name readOnly current hidle hhook =>
      intro other
      by_cases hother : other = name
      · subst hother
        have hbefore := h other
        rw [hidle] at hbefore
        obtain ⟨mode, hmode⟩ := applyContextAfterBegin_transaction (by simp) hhook
        have hbegun : Shows (currentSetting ({ pool other with transaction := some false } :
            Connection).settings settings.rlsTenantSetting) none := hbefore
        simp only [Pool.set, if_pos, hmode, beganUnder]
        exact ⟨_, rfl, applyContextAfterBegin_shows hapart hbegun hhook⟩
      · have hbefore := h other
        simpa only [Pool.set, if_neg hother, beganUnder, if_neg (Ne.symm hother)] using hbefore
  | statement name rows statement hopen => exact h
  | finish name reset hopen hreset =>
      intro other
      by_cases hother : other = name
      · subst hother
        simp only [Pool.set, if_pos]
        rcases hreset (foldName settings.rlsTenantSetting) with hnone | hempty
        · exact .inl hnone
        · exact .inr (.inl hempty)
      · have hbefore := h other
        simpa only [Pool.set, if_neg hother, beganUnder] using hbefore

theorem reaches_poolShows (hapart : TenantSettingApart settings) {history : List (Event Row)}
    {pool : Pool} (hr : (sessions pg settings policy cell).Reaches history pool) :
    PoolShows settings history pool := by
  refine hr.invariant (I := PoolShows settings) ?_ ?_
  · intro pool hinit name
    simp only [hinit name]
    exact .inl rfl
  · intro history pool event after _ h hstep
    exact step_poolShows hapart h hstep

/-- Tenant isolation: a statement touches only rows of the tenant its transaction began under,
no row at all without a tenant, and a transaction that requires a tenant and has none raises
when it begins. -/
structure Isolated (pg : Postgres) (settings : StorageSettings) (policy : TenantPolicy)
    (cell : Row → Option Uuid) : Prop where
  confined : ∀ history pool, (sessions pg settings policy cell).Reaches history pool →
    ∀ name access after, Step pg settings policy cell pool (.statement name (.ok access)) after →
      ∃ context, beganUnder name history = some context ∧
        ∀ row ∈ access.read ++ access.written,
          ∃ tenant, context.tenantId = some tenant ∧ cell row = some tenant
  required : settings.tenantRequired = true → ∀ pool name context outcome after,
    Step pg settings policy cell pool (.begin_ name context outcome) after →
      context.tenantId = none → outcome =
        .error (.tenantContextError "a tenant context is required for this database transaction")

/-- A table protected under the tenant setting is isolated, while the actor and the request
setting are not the tenant setting under another spelling. -/
theorem tenant_isolation (pg : Postgres) {settings : StorageSettings}
    (henabled : settings.tenantRlsEnabled = true) (hapart : TenantSettingApart settings)
    {sha256Hex : String → String} {table tenantColumn : String} {schema : Option String}
    {force : Bool} {statements : List Ddl} {policy : TenantPolicy}
    (hrls : enableTenantRls sha256Hex table tenantColumn settings.rlsTenantSetting schema force =
      .ok statements)
    (hpolicy : .createPolicy policy ∈ statements) (cell : Row → Option Uuid) :
    Isolated pg settings policy cell where
  confined history pool hr name access after hstep := by
    have hsetting := (Alembic.enableTenantRls_policy hrls hpolicy).1
    have hshows := reaches_poolShows hapart hr name
    generalize houtcome : (Except.ok access : Except PyError (Access Row)) = outcome at hstep
    cases hstep with
    | statement name rows statement hopen =>
        rw [hopen] at hshows
        obtain ⟨context, hbegan, hshows⟩ := hshows
        exact ⟨context, hbegan, executeStatement_confined (hsetting.symm ▸ hshows) houtcome.symm⟩
  required hrequired pool name context outcome after hstep hcontext := by
    cases hstep with
    | begin_ name readOnly current hidle hhook =>
        have h := @applyContextAfterBegin_required _ henabled hrequired readOnly _
          hcontext { pool name with transaction := some false }
        rw [hhook] at h
        exact h

/-- A server that reads a UUID as Python does. -/
def samplePostgres : Postgres where
  castUuid text := (Uuid.ofStr text).toOption
  castUuid_str value := by rw [Uuid.ofStr_str]; rfl

/-- The policy of a table protected under the default setting. -/
def samplePolicy : TenantPolicy :=
  ⟨"customers_tenant_isolation", "\"customers\"", "tenant_id", "app.tenant_id"⟩

theorem samplePolicy_created :
    enableTenantRls id "customers" "tenant_id" "app.tenant_id" none true =
      .ok [.enableRowLevelSecurity "\"customers\"", .forceRowLevelSecurity "\"customers\"",
        .createPolicy samplePolicy] := by
  decide

/-- The default settings isolate the tenants. -/
theorem tenant_isolation_default :
    Isolated samplePostgres { tenantRlsEnabled := true } samplePolicy (id : Option Uuid → _) :=
  tenant_isolation samplePostgres rfl ⟨by decide, by decide⟩ samplePolicy_created (by simp) id

/-- Settings whose actor setting is the tenant setting in another spelling. -/
def respeltSettings : StorageSettings :=
  { defaultSettings with
    tenantRlsEnabled := true
    rlsActorSetting := "App.Tenant_Id"
    rlsActorSetting_safe := by decide }

/-- A caller of tenant 1 acting as the user 2. -/
def actingContext : RequestContext := { tenantId := some 1, actorId := some 2 }

/-- The settings of a connection after the hook ran for that caller. -/
def actingSession : SessionSettings :=
  (contextValues respeltSettings actingContext).foldl
    (fun settings value => setConfig settings value.1 value.2) fun _ => none

/-- The tenant setting shows the actor. -/
theorem actingSession_tenant :
    currentSetting actingSession samplePolicy.setting = some (Uuid.str 2) := by
  have hrequest : foldName "app.request_id" ≠ foldName "app.tenant_id" := by decide
  have hactor : foldName "app.tenant_id" = foldName "App.Tenant_Id" := by decide
  simp only [actingSession, contextValues, List.foldl_cons, List.foldl_nil, samplePolicy,
    respeltSettings, defaultSettings]
  rw [currentSetting_setConfig_other hrequest, currentSetting, hactor]
  exact currentSetting_setConfig_self _ "App.Tenant_Id" (Uuid.str 2)

/-- The caller reads a row of tenant 2. -/
theorem actingSession_read :
    executeStatement samplePostgres samplePolicy (id : Option Uuid → _) actingSession false
      [some 2] (.select fun _ => true) = .ok ⟨[some 2], []⟩ := by
  have hcast := samplePostgres.castUuid_str 2
  have hempty : Uuid.str 2 ≠ "" := by decide
  have hshown : policyTenant samplePostgres actingSession samplePolicy.setting = .ok (some 2) := by
    rw [policyTenant, actingSession_tenant]
    simp only [if_neg hempty, hcast]
  simp only [executeStatement, hshown]
  rfl

/-- Under these settings the actor overwrites the tenant, and the caller reads the rows of the
tenant whose id is the actor's. -/
theorem tenant_isolation_respelt :
    respeltSettings.tenantRlsEnabled = true ∧
      (∃ statements, enableTenantRls id "customers" "tenant_id" respeltSettings.rlsTenantSetting
        none true = .ok statements ∧ .createPolicy samplePolicy ∈ statements) ∧
      ¬Isolated samplePostgres respeltSettings samplePolicy (id : Option Uuid → _) := by
  refine ⟨rfl, ⟨_, samplePolicy_created, by simp⟩, ?_⟩
  intro hisolated
  let pool : Pool := Pool.set (fun _ => ⟨fun _ => none, none⟩) 0 ⟨actingSession, some false⟩
  have hreached : (sessions samplePostgres respeltSettings samplePolicy
      (id : Option Uuid → _)).Reaches [.begin_ 0 actingContext (.ok ())] pool :=
    .step (.init fun _ => rfl) (.begin_ 0 false (some actingContext) rfl rfl)
  have hread : Step samplePostgres respeltSettings samplePolicy (id : Option Uuid → _) pool
      (.statement 0 (.ok ⟨[some 2], []⟩)) pool := by
    rw [← actingSession_read]
    exact .statement 0 [some 2] (.select fun _ => true) rfl
  obtain ⟨context, hcontext, hrows⟩ := hisolated.confined _ _ hreached _ _ _ hread
  obtain ⟨tenant, htenant, hrow⟩ := hrows (some 2) (by simp)
  -- the caller's tenant is 1
  obtain rfl : actingContext = context := Option.some.inj hcontext
  simp only [actingContext, Option.some.injEq] at htenant
  rw [← htenant] at hrow
  exact absurd hrow (by decide)

end ProdkitStorage.Database
