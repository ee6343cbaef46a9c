import ProdkitStorage.Python.Error

/-!
# Audit policies

`security/audit.py`.  A payload is a tree of mappings, lists and tuples over scalars.
A container has an identity, since the walk keeps the identities of the containers it
is in to find a cycle; a payload that contains itself is the tree up to the first
container that is met again.

The keys of a mapping and the scalars are any Python objects.  What the policy takes
from Python's library is a `Library`.  How a policy decides on a value (`ValuePolicy`) does
not depend on how payloads are modelled.
-/

namespace ProdkitStorage.Security

open ProdkitStorage.Python

/-! ## Payloads -/

/-- A payload with the keys `κ` and the scalars `α`. -/
inductive Payload (κ α : Type) where
  | scalar (value : α)
  | mapping (object : Nat) (items : List (κ × Payload κ α))
  /-- A list, or a tuple. -/
  | sequence (isTuple : Bool) (object : Nat) (items : List (Payload κ α))

/-- `str.lower`.  Of the tables it reads only this is used: no character vanishes, and a text in
lower case stays. -/
structure Lowercase where
  lower : String → String
  length_le : ∀ text, text.length ≤ (lower text).length
  lower_lower : ∀ text, lower (lower text) = lower text

/-- What the policy takes from Python's library for values of a type. -/
structure ValueLibrary (V : Type) extends Lowercase where
  /-- `repr(value)` of a text. -/
  reprText : String → String
  repr : V → String
  /-- The hexadecimal digest of HMAC-SHA-256 over the UTF-8 bytes of a text. -/
  hmacSha256 : List UInt8 → String → String

/-- What the policy takes from Python's library. -/
structure Library (κ α : Type) extends ValueLibrary (Payload κ α) where
  /-- `str(key)`. -/
  keyText : κ → String

instance {κ α : Type} : CoeOut (Library κ α) (ValueLibrary (Payload κ α)) :=
  ⟨Library.toValueLibrary⟩

/-- `".".join(path)`. -/
def dotted (path : List String) : String := String.intercalate "." path

/-! ## Policies -/

/-- `DataClassification`. -/
inductive DataClassification where
  | public_
  | internal
  | personal
  | sensitive
  | secret
  | regulated
deriving DecidableEq, Repr

/-- `AuditAction`. -/
inductive AuditAction where
  | keep
  | mask
  | drop
  | hash
  | reject
deriving DecidableEq, Repr

/-- `AuditFieldClassifier` and `ClassifierHook`, for values of a type. -/
abbrev ValueClassifier (V : Type) := List String → V → Option DataClassification

abbrev Classifier (κ α : Type) := ValueClassifier (Payload κ α)

/-- `NameClassifier`. -/
structure NameClassifier where
  paths : List (String × DataClassification) := []
  leafNames : List (String × DataClassification) := []

/-- `NameClassifier.classify`. -/
def NameClassifier.classify {κ α : Type} (classifier : NameClassifier) (text : Lowercase) :
    Classifier κ α := fun path _ =>
  match classifier.paths.lookup (text.lower (dotted path)) with
  | some classification => some classification
  | none =>
      match path.getLast? with
      | some leaf => classifier.leafNames.lookup (text.lower leaf)
      | none => none

/-- The default `classification_actions`. -/
def defaultActions : List (DataClassification × AuditAction) :=
  [(.public_, .keep), (.internal, .keep), (.personal, .keep), (.sensitive, .mask),
    (.secret, .drop), (.regulated, .mask)]

/-- `AuditPolicy`, for values of a type. -/
structure ValuePolicy (V : Type) where
  classifiers : List (ValueClassifier V) := []
  classificationActions : List (DataClassification × AuditAction) := defaultActions
  fieldActions : List (String × AuditAction) := []
  mask : String := "[REDACTED]"
  hashSecret : Option (List UInt8) := none
  maxDepth : Int := 32

abbrev AuditPolicy (κ α : Type) := ValuePolicy (Payload κ α)

/-- `_DEFAULT_SECRET_NAMES`. -/
def defaultSecretNames : List (String × DataClassification) :=
  [("password", .secret), ("password_hash", .secret), ("access_token", .secret),
    ("refresh_token", .secret), ("api_key", .secret), ("secret", .secret),
    ("client_secret", .secret), ("private_key", .secret), ("authorization", .secret),
    ("cookie", .secret), ("cvv", .secret), ("cvc", .secret), ("card_number", .regulated),
    ("pan", .regulated), ("ssn", .regulated)]

/-- `DEFAULT_AUDIT_POLICY`. -/
def defaultAuditPolicy {κ α : Type} (text : Lowercase) : AuditPolicy κ α where
  classifiers := [({ leafNames := defaultSecretNames } : NameClassifier).classify text]

/-! ## Sanitizing -/

/-- A sanitized payload. -/
inductive Sanitized (α : Type) where
  | scalar (value : α)
  /-- The mask, or a digest. -/
  | text (value : String)
  | dict (items : List (String × Sanitized α))
  | list (items : List (Sanitized α))

/-- `sanitized[key] = value`: a key that is there keeps its place. -/
def setItem {β : Type} (key : String) (value : β) : List (String × β) → List (String × β)
  | [] => [(key, value)]
  | (key', value') :: items =>
      if key' = key then (key, value) :: items else (key', value') :: setItem key value items

namespace ValuePolicy

variable {V : Type} (policy : ValuePolicy V) (library : ValueLibrary V)

/-- The action of the first classifier that classifies the value. -/
def classifiedAction (path : List String) (value : V) : List (ValueClassifier V) → AuditAction
  | [] => .keep
  | classifier :: classifiers =>
      match classifier path value with
      | some classification => (policy.classificationActions.lookup classification).getD .keep
      | none => classifiedAction path value classifiers

/-- `_action`. -/
def action (path : List String) (value : V) : AuditAction :=
  match policy.fieldActions.lookup (library.lower (dotted path)) with
  | some fieldAction => fieldAction
  | none => policy.classifiedAction path value policy.classifiers

/-- `_hash`, of a value with this `repr`. -/
def hash (text : String) : Except PyError String :=
  match policy.hashSecret with
  | none => .error (.valueError "hash_secret is required for hashed audit fields")
  | some secret => .ok ("sha256:" ++ library.hmacSha256 secret text)

/-- The error of a rejected field. -/
def forbidden (path : List String) : PyError :=
  .valueError ("audit field " ++ library.reprText (dotted path) ++ " is forbidden")

/-- The error of a container in itself. -/
def cycleError : PyError := .valueError "audit payload contains a cycle"

/-- The error of a payload that is nested too deeply. -/
def depthError : PyError := .valueError "audit payload exceeds maximum nesting depth"

end ValuePolicy

namespace AuditPolicy

open ValuePolicy

variable {κ α : Type} (policy : AuditPolicy κ α) (library : Library κ α)

mutual

/-- `_sanitize`; `none` is `_DROP`. -/
def sanitizeAt : Payload κ α → List String → List Nat → Nat →
    Except PyError (Option (Sanitized α))
  | value, path, visited, depth =>
      if policy.maxDepth < depth then .error depthError
      else match policy.action library path value with
        | .mask => .ok (some (.text policy.mask))
        | .drop => .ok none
        | .reject => .error (forbidden library.toValueLibrary path)
        | .hash => do return some (.text (← policy.hash library (library.repr value)))
        | .keep =>
            match value with
            | .scalar value => .ok (some (.scalar value))
            | .mapping object items =>
                if object ∈ visited then .error cycleError
                else do
                  return some (.dict (← sanitizeMapping items path (object :: visited) depth []))
            | .sequence _ object items =>
                if object ∈ visited then .error cycleError
                else do
                  let sanitizedItems ← sanitizeSequence items 0 path (object :: visited) depth
                  return some (.list (sanitizedItems.filterMap id))

/-- The loop over the items of a mapping. -/
def sanitizeMapping : List (κ × Payload κ α) → List String → List Nat → Nat →
    List (String × Sanitized α) → Except PyError (List (String × Sanitized α))
  | [], _, _, _, sanitized => .ok sanitized
  | (key, item) :: items, path, visited, depth, sanitized => do
      let keyText := library.keyText key
      match ← sanitizeAt item (path ++ [keyText]) visited (depth + 1) with
      | none => sanitizeMapping items path visited depth sanitized
      | some result => sanitizeMapping items path visited depth (setItem keyText result sanitized)

/-- The loop over the items of a list or tuple, from an index on. -/
def sanitizeSequence : List (Payload κ α) → Nat → List String → List Nat → Nat →
    Except PyError (List (Option (Sanitized α)))
  | [], _, _, _, _ => .ok []
  | item :: items, index, path, visited, depth => do
      let result ← sanitizeAt item (path ++ [toString index]) visited (depth + 1)
      let results ← sanitizeSequence items (index + 1) path visited depth
      return result :: results

end

/-- `sanitize`. -/
def sanitize (value : Payload κ α) : Except PyError (Option (Sanitized α)) :=
  policy.sanitizeAt library value [] [] 0

end AuditPolicy

end ProdkitStorage.Security
