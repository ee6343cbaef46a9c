import ProdkitStorage.Context
import ProdkitStorage.Security.Audit

/-!
# Audit events

`audit.py`: the event that `record_audit_event` adds to the session.  `before`,
`after` and `metadata` go through the policy's `sanitize`, or through `_identity`
without a policy, so `buildEvent` takes that function as an argument.
-/

namespace ProdkitStorage

open ProdkitStorage.Python
open ProdkitStorage.Security

/-- A `dict` as an argument. -/
structure PayloadDict (κ α : Type) where
  object : Nat
  items : List (κ × Payload κ α)

/-- The `dict` as a payload. -/
def PayloadDict.payload {κ α : Type} (dict : PayloadDict κ α) : Payload κ α :=
  .mapping dict.object dict.items

/-- The arguments of `_build_event`, but for the policy. -/
structure EventArguments (κ α : Type) where
  action : String
  entityType : String
  entityId : Option String := none
  actorType : Option String := none
  before : Option (PayloadDict κ α) := none
  after : Option (PayloadDict κ α) := none
  metadata : Option (PayloadDict κ α) := none
  sourceIp : Option String := none
  userAgent : Option String := none

/-- `metadata or {}`. -/
def EventArguments.metadataDict {κ α : Type} (arguments : EventArguments κ α) : PayloadDict κ α :=
  match arguments.metadata with
  | some ⟨object, item :: items⟩ => ⟨object, item :: items⟩
  | _ => ⟨0, []⟩

/-- `AuditEvent`, with the sanitized payloads `ρ`. -/
structure AuditEvent (ρ : Type) where
  tenantId : Option Uuid
  actorId : Option Uuid
  actorType : Option String
  action : String
  entityType : String
  entityId : Option String
  requestId : Option String
  traceId : Option String
  sourceIp : Option String
  userAgent : Option String
  before : Option ρ
  after : Option ρ
  metadata_ : ρ

variable {κ α ρ : Type}

/-- `sanitize(dict) if dict is not None else None`. -/
def sanitizeOptional (sanitize : Payload κ α → Except PyError ρ) :
    Option (PayloadDict κ α) → Except PyError (Option ρ)
  | none => .ok none
  | some dict => do return some (← sanitize dict.payload)

/-- `_build_event`.  `isDict` is `isinstance(result, dict)`. -/
def buildEvent (sanitize : Payload κ α → Except PyError ρ) (isDict : ρ → Bool)
    (context : RequestContext) (arguments : EventArguments κ α) :
    Except PyError (AuditEvent ρ) := do
  let before ← sanitizeOptional sanitize arguments.before
  let after ← sanitizeOptional sanitize arguments.after
  let metadata ← sanitize arguments.metadataDict.payload
  if !before.all isDict then
    .error (.typeError "sanitized audit before payload must be an object or null")
  else if !after.all isDict then
    .error (.typeError "sanitized audit after payload must be an object or null")
  else if !isDict metadata then .error (.typeError "sanitized audit metadata must be an object")
  else return {
      tenantId := context.tenantId
      actorId := context.actorId
      actorType := arguments.actorType
      action := arguments.action
      entityType := arguments.entityType
      entityId := arguments.entityId
      requestId := context.requestId
      traceId := context.traceId
      sourceIp := arguments.sourceIp
      userAgent := arguments.userAgent
      before := before
      after := after
      metadata_ := metadata
    }

/-- A sanitized payload is a `dict`; `_DROP` is none. -/
def isDict : Option (Sanitized α) → Bool
  | some (.dict _) => true
  | _ => false

/-- `record_audit_event` with a policy, at the value of the context variable. -/
def recordAuditEvent (policy : AuditPolicy κ α) (library : Library κ α)
    (current : Option RequestContext) (arguments : EventArguments κ α) :
    Except PyError (AuditEvent (Option (Sanitized α))) :=
  buildEvent (policy.sanitize library) isDict (getRequestContext current) arguments

/-- The event depends on a payload through what `sanitize` makes of it. -/
theorem buildEvent_congr {sanitize : Payload κ α → Except PyError ρ} {isDict : ρ → Bool}
    {context : RequestContext} {arguments arguments' : EventArguments κ α}
    (hrest : arguments' = { arguments with
      before := arguments'.before, after := arguments'.after, metadata := arguments'.metadata })
    (hbefore : sanitizeOptional sanitize arguments.before =
      sanitizeOptional sanitize arguments'.before)
    (hafter : sanitizeOptional sanitize arguments.after =
      sanitizeOptional sanitize arguments'.after)
    (hmetadata : sanitize arguments.metadataDict.payload =
      sanitize arguments'.metadataDict.payload) :
    buildEvent sanitize isDict context arguments =
      buildEvent sanitize isDict context arguments' := by
  unfold buildEvent
  rw [hbefore, hafter, hmetadata]
  obtain ⟨_, _, _, _, _, _, _, _, _⟩ := arguments
  obtain ⟨_, _, _, _, _, _, _, _, _⟩ := arguments'
  simp only [EventArguments.mk.injEq] at hrest
  obtain ⟨rfl, rfl, rfl, rfl, -, -, -, rfl, rfl⟩ := hrest
  rfl

end ProdkitStorage
