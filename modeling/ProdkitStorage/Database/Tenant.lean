import ProdkitStorage.Alembic.Rls
import ProdkitStorage.Context
import ProdkitStorage.Foundation.RowSecurity
import ProdkitStorage.Foundation.Transition

/-!
# Tenant context of a transaction

`database/tenant.py` and the part of PostgreSQL it relies on.  A connection of the
pool holds the custom settings of its server session.  `set_config(..., true)`
lasts to the end of the transaction, and then the setting reads as NULL or as the
empty string.  The server compares setting names without regard to ASCII case.

The row policy of a protected table reads the tenant setting when a statement
runs.  A statement gets the rows of its snapshot from outside: whatever the
transactions on other connections did is allowed.
-/

namespace ProdkitStorage.Database

open ProdkitStorage.Alembic (TenantPolicy)
open ProdkitStorage.Foundation
open ProdkitStorage.Python

/-! ## The server -/

/-- What the policies rely on: the cast of a text to `uuid`, `none` when the server raises. -/
structure Postgres where
  castUuid : String → Option Uuid
  castUuid_str : ∀ value : Uuid, castUuid value.str = some value

/-- The name under which the server looks a setting up. -/
def foldName (name : String) : List Char := name.toList.map Char.toLower

/-- The custom settings of a server session, `none` for NULL. -/
abbrev SessionSettings := List Char → Option String

/-- `current_setting(name, true)`. -/
def currentSetting (settings : SessionSettings) (name : String) : Option String :=
  settings (foldName name)

/-- `set_config(name, value, true)`. -/
def setConfig (settings : SessionSettings) (name value : String) : SessionSettings :=
  fun folded => if folded = foldName name then some value else settings folded

/-- A pooled connection.  `transaction` says whether the open transaction is read-only. -/
structure Connection where
  settings : SessionSettings
  transaction : Option Bool

/-- `NULLIF(current_setting(name, true), '')::uuid`. -/
def policyTenant (pg : Postgres) (settings : SessionSettings) (name : String) :
    Except PyError (Option Uuid) :=
  match currentSetting settings name with
  | none => .ok none
  | some text =>
      if text = "" then .ok none
      else match pg.castUuid text with
        | none => .error (.databaseError "invalid input syntax for type uuid")
        | some tenant => .ok (some tenant)

/-- The policy on rows whose tenant column is `cell`. -/
def rowPolicy {Row : Type} (tenant : Option Uuid) (cell : Row → Option Uuid) : RowPolicy Row where
  using_ row := Truth.compare (· == ·) (cell row) tenant
  withCheck row := Truth.compare (· == ·) (cell row) tenant

/-- The statement writes. -/
def isWrite {Row : Type} : Statement Row → Bool
  | .select _ => false
  | _ => true

/-- A statement on the protected table, in an open transaction. -/
def executeStatement {Row : Type} (pg : Postgres) (policy : TenantPolicy)
    (cell : Row → Option Uuid) (settings : SessionSettings) (readOnly : Bool) (rows : List Row)
    (statement : Statement Row) : Except PyError (Access Row) :=
  if readOnly && isWrite statement then
    .error (.databaseError "cannot execute the statement in a read-only transaction")
  else do
    let tenant ← policyTenant pg settings policy.setting
    match statement.run (rowPolicy tenant cell) rows with
    | none => .error (.databaseError "new row violates row-level security policy")
    | some (access, _) => return access

/-! ## The hook -/

/-- The text of a context value. -/
def contextText {α : Type} (str : α → String) : Option α → String
  | none => ""
  | some value => str value

/-- The settings the hook installs, in the order it does. -/
def contextValues (settings : StorageSettings) (context : RequestContext) :
    List (String × String) :=
  [(settings.rlsTenantSetting, contextText Uuid.str context.tenantId),
    (settings.rlsActorSetting, contextText Uuid.str context.actorId),
    (settings.rlsRequestSetting, contextText id context.requestId)]

/-- `_apply_context_after_begin`, on a connection whose transaction has begun.  `info` are the
`storage_settings` and `read_only` of the session. -/
def applyContextAfterBegin (info : Option StorageSettings) (readOnly : Bool)
    (context : RequestContext) (connection : Connection) : Connection × Except PyError Unit :=
  match info with
  | none => (connection, .ok ())
  | some settings =>
      let connection := if readOnly then { connection with transaction := some true }
        else connection
      if !settings.tenantRlsEnabled then (connection, .ok ())
      else if settings.tenantRequired && context.tenantId.isNone then
        (connection, .error (.tenantContextError
          "a tenant context is required for this database transaction"))
      else
        let installed := (contextValues settings context).foldl
          (fun settings value => setConfig settings value.1 value.2) connection.settings
        ({ connection with settings := installed }, .ok ())

/-! ## Sessions over a pool -/

/-- The connections of the pools, by name. -/
abbrev Pool := Nat → Connection

/-- Replace one connection. -/
def Pool.set (pool : Pool) (name : Nat) (connection : Connection) : Pool :=
  fun other => if other = name then connection else pool other

/-- What happens on a connection. -/
inductive Event (Row : Type) where
  /-- A transaction begins, under the request context of its caller. -/
  | begin_ (connection : Nat) (context : RequestContext) (outcome : Except PyError Unit)
  | statement (connection : Nat) (outcome : Except PyError (Access Row))
  /-- It commits or rolls back, and the connection goes back to the pool. -/
  | finish (connection : Nat)

/-- One step of any session.  A transaction whose hook raised stays open until its session rolls
it back, and a caller that goes on all the same runs its statements in it. -/
inductive Step {Row : Type} (pg : Postgres) (settings : StorageSettings) (policy : TenantPolicy)
    (cell : Row → Option Uuid) : Pool → Event Row → Pool → Prop where
  | begin_ {pool : Pool} {connection : Connection} {outcome : Except PyError Unit} (name : Nat)
      (readOnly : Bool) (current : Option RequestContext) :
      (pool name).transaction = none →
      applyContextAfterBegin (some settings) readOnly (getRequestContext current)
        { pool name with transaction := some false } = (connection, outcome) →
      Step pg settings policy cell pool (.begin_ name (getRequestContext current) outcome)
        (pool.set name connection)
  | statement {pool : Pool} {readOnly : Bool} (name : Nat) (rows : List Row)
      (statement : Statement Row) :
      (pool name).transaction = some readOnly →
      Step pg settings policy cell pool
        (.statement name
          (executeStatement pg policy cell (pool name).settings readOnly rows statement)) pool
  | finish {pool : Pool} {readOnly : Bool} (name : Nat) (after : SessionSettings) :
      (pool name).transaction = some readOnly →
      (∀ folded, after folded = none ∨ after folded = some "") →
      Step pg settings policy cell pool (.finish name) (pool.set name ⟨after, none⟩)

/-- The sessions of an application, on connections that were just opened. -/
def sessions {Row : Type} (pg : Postgres) (settings : StorageSettings) (policy : TenantPolicy)
    (cell : Row → Option Uuid) : System Pool (Event Row) where
  init pool := ∀ name, pool name = ⟨fun _ => none, none⟩
  step := Step pg settings policy cell

/-- The request context under which the latest transaction on a connection began. -/
def beganUnder {Row : Type} (connection : Nat) : List (Event Row) → Option RequestContext
  | [] => none
  | .begin_ name context _ :: history =>
      if name = connection then some context else beganUnder connection history
  | _ :: history => beganUnder connection history

end ProdkitStorage.Database
