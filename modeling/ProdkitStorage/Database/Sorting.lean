import ProdkitStorage.Foundation.Keyset
import ProdkitStorage.Foundation.Select
import ProdkitStorage.Python.Primitives
import ProdkitStorage.Python.Text
import ProdkitStorage.Python.Value

/-!
# Sorting

`database/sorting.py`.  A sort expression is evaluated on the environments of a
statement, and the database compares its values by one total order; in SQL a
comparison with NULL is unknown.  SQLAlchemy writes the comparison operators as
those of SQL, and refuses `<` and `>` with a Python `bool`.

Rows are objects of the application.  `getattr` reads an attribute of a row.
-/

namespace ProdkitStorage.Database

open ProdkitStorage.Foundation
open ProdkitStorage.Python

/-! ## Terms -/

/-- `SortDirection`. -/
inductive SortDirection where
  | asc
  | desc
deriving DecidableEq, Repr

/-- `direction.value`. -/
def SortDirection.value : SortDirection → String
  | .asc => "asc"
  | .desc => "desc"

/-- How a later value compares with the one of the cursor. -/
def SortDirection.sought : SortDirection → Ordering
  | .asc => .gt
  | .desc => .lt

/-- `NullPlacement`. -/
inductive NullPlacement where
  | first
  | last
deriving DecidableEq, Repr

/-- `nulls.value`. -/
def NullPlacement.value : NullPlacement → String
  | .first => "first"
  | .last => "last"

/-- A `ColumnElement`.  Where an expression lacks an attribute it has the default of `getattr`. -/
structure Column (Env : Type) where
  key : Option String := none
  type : ColumnType
  nullable : Bool := true
  unique : Bool := false
  primaryKey : Bool := false
  eval : Env → Option PyValue
  /-- The order of the values in the database. -/
  compare : PyValue → PyValue → Ordering
  compare_trans : Std.TransCmp compare

/-- The value of a sort field on a row object. -/
abbrev Cell := Option PyValue

/-- `getattr(row, name)`. -/
abbrev GetAttr (Row : Type) := Row → String → Except PyError Cell

/-- `Accessor`. -/
inductive Accessor (Row : Type) where
  | attribute (name : String)
  | callable (read : Row → Except PyError Cell)

/-- The name of a sort field is allowed. -/
def isPublicName (name : String) : Bool := name != "" && !(name.toList.head? == some '_')

/-- `SortField`, after `__post_init__`. -/
structure SortField (Env Row : Type) where
  name : String
  expression : Column Env
  accessor : Option (Accessor Row)
  defaultNulls : NullPlacement
  nullable : Bool
  unique : Bool
  name_public : isPublicName name = true

variable {Env Row : Type}

/-- `SortField(...)`. -/
def SortField.make (name : String) (expression : Column Env) (accessor : Option (Accessor Row))
    (defaultNulls : NullPlacement) (nullable unique : Option Bool) :
    Except PyError (SortField Env Row) :=
  if h : isPublicName name = true then
    .ok { name, expression, accessor, defaultNulls, name_public := h
          nullable := nullable.getD expression.nullable
          unique := unique.getD (expression.unique || expression.primaryKey) }
  else .error (.valueError "sort field names must be public non-empty names")

/-- `accessor or getattr(self.expression, "key", None)`. -/
def SortField.attribute (field : SortField Env Row) : Option String :=
  match field.accessor with
  | some (.attribute name) => if name = "" then field.expression.key else some name
  | _ => field.expression.key

/-- `SortField.value_from`. -/
def SortField.valueFrom (getattr : GetAttr Row) (field : SortField Env Row) (row : Row) :
    Except PyError Cell :=
  match field.accessor with
  | some (.callable read) => read row
  | _ =>
      match field.attribute with
      | some name =>
          if name = "" then
            .error (.valueError ("sort field " ++ pyRepr field.name ++
              " needs an accessor for cursor pagination"))
          else getattr row name
      | none =>
          .error (.valueError ("sort field " ++ pyRepr field.name ++
            " needs an accessor for cursor pagination"))

/-- `SortTerm`. -/
structure SortTerm where
  field : String
  direction : SortDirection := .asc
  nulls : Option NullPlacement := none
deriving DecidableEq, Repr

/-- `SortTerm.parse`. -/
def SortTerm.parse (value : String) : Except PyError SortTerm :=
  match (strip value).toList with
  | [] => .error (.valueError "sorting criteria must not be empty")
  | c :: cs =>
      let direction : SortDirection := if c = '-' then .desc else .asc
      let name := if c = '-' ∨ c = '+' then cs else c :: cs
      if name = [] then .error (.valueError "sorting criteria must contain a field name")
      else .ok { field := String.ofList name, direction }

/-- `SortTerm.external_value`. -/
def SortTerm.externalValue (term : SortTerm) : String :=
  match term.direction with
  | .desc => "-" ++ term.field
  | .asc => term.field

/-- What SQLAlchemy says of an order comparison with `None`, `True` or `False`. -/
def onlyEquality : String :=
  "Only '=', '!=', 'is_()', 'is_not()', 'is_distinct_from()', " ++
    "'is_not_distinct_from()' operators can be used with None/True/False"

/-- `ResolvedSortTerm`. -/
structure ResolvedSortTerm (Env Row : Type) where
  field : SortField Env Row
  direction : SortDirection
  nulls : NullPlacement

namespace ResolvedSortTerm

/-- The order of the cells `order_by` asks for. -/
def compareCells (term : ResolvedSortTerm Env Row) : Cell → Cell → Ordering :=
  placeNulls (term.nulls = .first) (match term.direction with
    | .desc => descending term.field.expression.compare
    | .asc => term.field.expression.compare)

/-- `ResolvedSortTerm.order_by`. -/
def orderBy (term : ResolvedSortTerm Env Row) (a b : Env) : Ordering :=
  term.compareCells (term.field.expression.eval a) (term.field.expression.eval b)

/-- `ResolvedSortTerm.equality`. -/
def equality (term : ResolvedSortTerm Env Row) (cursorValue : Cell) (env : Env) : Truth :=
  let expression := term.field.expression
  match cursorValue with
  | none => Truth.isNull (expression.eval env)
  | some value =>
      Truth.compare (fun x y => expression.compare x y == .eq) (expression.eval env) (some value)

/-- `expression < value` or `expression > value`, which SQLAlchemy writes for any value but a
`bool`. -/
def valueComparison (term : ResolvedSortTerm Env Row) : PyValue → Except PyError (Env → Truth)
  | .bool _ => .error (.argumentError onlyEquality)
  | value =>
      let expression := term.field.expression
      .ok fun env =>
        Truth.compare (fun x y => expression.compare x y == term.direction.sought)
          (expression.eval env) (some value)

/-- `ResolvedSortTerm.after`. -/
def after (term : ResolvedSortTerm Env Row) : Cell → Except PyError (Env → Truth)
  | none => .ok fun env =>
      match term.nulls with
      | .first => Truth.isNotNull (term.field.expression.eval env)
      | .last => .false
  | some value => do
      let comparison ← term.valueComparison value
      return fun env =>
        match term.nulls with
        | .last => Truth.or (Truth.isNull (term.field.expression.eval env)) (comparison env)
        | .first => comparison env

/-- The two conditions `boundary` takes from a term. -/
def bound (term : ResolvedSortTerm Env Row) (cursorValue : Cell) : Except PyError (Bound Env) := do
  let after ← term.after cursorValue
  return { after, equality := term.equality cursorValue }

end ResolvedSortTerm

/-! ## Plans -/

/-- `SortPlan`. -/
structure SortPlan (Env Row : Type) where
  terms : List (ResolvedSortTerm Env Row)
  fingerprint : String

namespace SortPlan

/-- `SortPlan.apply`. -/
def apply {Db : Type} (plan : SortPlan Env Row) (statement : Select Db Env Row) :
    Select Db Env Row :=
  statement.addOrder (plan.terms.map ResolvedSortTerm.orderBy)

/-- `SortPlan.values_from`. -/
def valuesFrom (getattr : GetAttr Row) (plan : SortPlan Env Row) (row : Row) :
    Except PyError (List Cell) :=
  plan.terms.mapM fun term => term.field.valueFrom getattr row

/-- `SortPlan.boundary`.  An empty `OR` is false. -/
def boundary (plan : SortPlan Env Row) (values : List Cell) : Except PyError (Env → Truth) :=
  if values.length ≠ plan.terms.length then
    .error (.valueError "cursor value count does not match the active sorting")
  else do
    let bounds ← (plan.terms.zip values).mapM fun (term, value) => term.bound value
    return disjunction ((alternatives [] bounds).map conjunction)

/-- The values of the sort expressions. -/
def evals (plan : SortPlan Env Row) (env : Env) : List Cell :=
  plan.terms.map fun term => term.field.expression.eval env

/-- What the fingerprint of a plan depends on. -/
def keys (plan : SortPlan Env Row) : List (String × SortDirection × NullPlacement) :=
  plan.terms.map fun term => (term.field.name, term.direction, term.nulls)

/-- `SortPlan.external_values`. -/
def externalValues (plan : SortPlan Env Row) : List String :=
  plan.terms.map fun term =>
    SortTerm.externalValue ⟨term.field.name, term.direction, some term.nulls⟩

end SortPlan

/-! ## The registry -/

/-- A term, or the text of one. -/
inductive SortCriterion where
  | term (term : SortTerm)
  | text (value : String)
deriving DecidableEq, Repr

/-- `_normalize_term`. -/
def normalizeTerm : SortCriterion → Except PyError SortTerm
  | .term term => .ok term
  | .text value => SortTerm.parse value

/-- `SortRegistry._require_field`. -/
def requireField (fields : List (String × SortField Env Row)) (name : String) :
    Except PyError (SortField Env Row) :=
  match fields.lookup name with
  | some field => .ok field
  | none => .error (.valueError ("unsupported sorting field: " ++ name))

/-- `SortRegistry`, after `__init__`. -/
structure SortRegistry (Env Row : Type) where
  name : String
  fields : List (String × SortField Env Row)
  default : List SortTerm
  tieBreaker : SortTerm
  tieBreakerWasString : Bool
  tieField : SortField Env Row
  default_ne : default ≠ []
  requireField_tie : requireField fields tieBreaker.field = .ok tieField
  tie_not_nullable : tieField.nullable = false
  tie_unique : tieField.unique = true

/-- The loop of `SortRegistry.resolve`, after the fields in `seen`. -/
def resolveTerms (fields : List (String × SortField Env Row)) :
    List String → List SortTerm → Except PyError (List (ResolvedSortTerm Env Row))
  | _, [] => .ok []
  | seen, term :: terms =>
      if term.field ∈ seen then
        .error (.valueError ("duplicate sorting field: " ++ term.field))
      else do
        let field ← requireField fields term.field
        let rest ← resolveTerms fields (term.field :: seen) terms
        return ⟨field, term.direction, term.nulls.getD field.defaultNulls⟩ :: rest

/-- The JSON value of one term in the fingerprint, its keys in order. -/
def termPayload (key : String × SortDirection × NullPlacement) : Json :=
  .obj [("direction", .str key.2.1.value), ("field", .str key.1), ("nulls", .str key.2.2.value)]

/-- The JSON value the fingerprint is made of, its keys in order. -/
def fingerprintPayload (name : String) (keys : List (String × SortDirection × NullPlacement)) :
    Json :=
  .obj [("registry", .str name), ("terms", .arr (keys.map termPayload))]

/-- `hashlib.sha256(orjson.dumps(...)).hexdigest()[:24]`. -/
def fingerprintOf (lib : Primitives) (payload : Json) : String :=
  takeStr 24 (lib.sha256Hex (lib.dumps payload))

namespace SortRegistry

/-- The terms of a plan: those asked for, and the tie-breaker when it is not one of them. -/
def completeTerms (registry : SortRegistry Env Row) (terms : List SortTerm) :
    Except PyError (List (ResolvedSortTerm Env Row)) := do
  let resolved ← resolveTerms registry.fields [] terms
  if registry.tieBreaker.field ∈ terms.map SortTerm.field then return resolved
  -- `resolved` is not empty, so `resolved[-1]` exists.
  let tieDirection := match registry.tieBreakerWasString, resolved.getLast? with
    | true, some last => last.direction
    | _, _ => registry.tieBreaker.direction
  let field ← requireField registry.fields registry.tieBreaker.field
  return resolved ++
    [⟨field, tieDirection, registry.tieBreaker.nulls.getD field.defaultNulls⟩]

/-- `SortRegistry.resolve`. -/
def resolve (lib : Primitives) (registry : SortRegistry Env Row) (terms : List SortCriterion) :
    Except PyError (SortPlan Env Row) := do
  let normalized ← terms.mapM normalizeTerm
  let normalized := if normalized = [] then registry.default else normalized
  let resolved ← registry.completeTerms normalized
  let keys := resolved.map fun term => (term.field.name, term.direction, term.nulls)
  return ⟨resolved, fingerprintOf lib (fingerprintPayload registry.name keys)⟩

/-- What `SortRegistry.parse` takes, unless it is `None`. -/
inductive SortValues where
  | text (value : String)
  | items (values : List String)

/-- `raw_values` in `SortRegistry.parse`. -/
def SortValues.raw : SortValues → List String
  | .text value =>
      ((value.toList.splitOn ',').map String.ofList).filter fun part => strip part != ""
  | .items values => values

/-- `SortRegistry.parse`. -/
def parse (lib : Primitives) (registry : SortRegistry Env Row) :
    Option SortValues → Except PyError (SortPlan Env Row)
  | none => registry.resolve lib (registry.default.map .term)
  | some values =>
      if values.raw = [] then registry.resolve lib (registry.default.map .term)
      else do
        let terms ← values.raw.mapM SortTerm.parse
        registry.resolve lib (terms.map .term)

/-- A field of the registry, or the expression of one. -/
inductive FieldSpec (Env Row : Type) where
  | field (field : SortField Env Row)
  | column (expression : Column Env)

/-- One entry of the loop over `fields.items()`. -/
def normalizeField : String × FieldSpec Env Row → Except PyError (String × SortField Env Row)
  | (fieldName, spec) => do
      let normalized ← match spec with
        | .field field => .ok field
        | .column expression => SortField.make fieldName expression none .last none none
      if normalized.name ≠ fieldName then
        .error (.valueError "sort field mapping key must match SortField.name")
      else return (fieldName, normalized)

/-- `SortRegistry.__init__`. -/
def make (lib : Primitives) (fields : List (String × FieldSpec Env Row))
    (default : List SortCriterion) (tieBreaker : SortCriterion) (name : String) :
    Except PyError (SortRegistry Env Row) := do
  if fields = [] then .error (.valueError "at least one sort field is required")
  let fields ← fields.mapM normalizeField
  let default ← default.mapM normalizeTerm
  if hdefault : default = [] then
    .error (.valueError "default sorting must contain at least one term")
  else
    let tie ← normalizeTerm tieBreaker
    match htie : requireField fields tie.field with
    | .error error => .error error
    | .ok tieField =>
        if hnullable : tieField.nullable = true then
          .error (.valueError "the cursor tie-breaker must be non-nullable")
        else if hunique : tieField.unique = true then do
          let registry : SortRegistry Env Row :=
            { name := if strip name = "" then "default" else strip name
              fields, default, tieBreaker := tie, tieField
              tieBreakerWasString := match tieBreaker with
                | .text _ => true
                | .term _ => false
              default_ne := hdefault
              requireField_tie := htie
              tie_not_nullable := by simpa using hnullable
              tie_unique := hunique }
          let _ ← registry.resolve lib (default.map .term)
          return registry
        else .error (.valueError "the cursor tie-breaker must be unique or a primary key")

end SortRegistry

end ProdkitStorage.Database
