import ProdkitStorage.Python.Error
import ProdkitStorage.Python.Text

/-!
# Settings

The settings of `config.py` the modelled code reads, as the validators leave
them.
-/

namespace ProdkitStorage

open ProdkitStorage.Python

/-- `[A-Za-z_][A-Za-z0-9_.]*`, matched in full. -/
def isSettingName (value : String) : Bool :=
  match value.toList with
  | [] => false
  | c :: cs => (c.isAlpha || c == '_') && cs.all fun c => c.isAlphanum || c == '_' || c == '.'

/-- `_safe_setting_name`. -/
def safeSettingName (value : String) : Except PyError String :=
  let value := strip value
  if isSettingName value then .ok value
  else .error (.valueError "RLS setting names must be valid PostgreSQL custom settings")

/-- The settings of the request context in `StorageSettings`. -/
structure StorageSettings where
  tenantRlsEnabled : Bool := false
  tenantRequired : Bool := false
  rlsTenantSetting : String := "app.tenant_id"
  rlsActorSetting : String := "app.actor_id"
  rlsRequestSetting : String := "app.request_id"
  rlsTenantSetting_safe : safeSettingName rlsTenantSetting = .ok rlsTenantSetting := by decide
  rlsActorSetting_safe : safeSettingName rlsActorSetting = .ok rlsActorSetting := by decide
  rlsRequestSetting_safe : safeSettingName rlsRequestSetting = .ok rlsRequestSetting := by decide

/-- The settings where no variable is set. -/
def defaultSettings : StorageSettings := {}

end ProdkitStorage
