import ProdkitStorage.Database.Sorting
import ProdkitStorage.Foundation.Like

/-!
# Filtering

`database/filtering.py`.  `FilterRegistry.resolve` makes criteria of the terms of a request, and
`Criterion.truth` is what the server makes of a criterion.

SQLAlchemy writes `== None` as `IS NULL` and `!= None` as `IS NOT NULL`, and it refuses an order
comparison with `None`, `True` or `False`.  With `autoescape` it puts a `/` before every `/`, `%`
and `_` of the text that is searched for.  An empty `IN` is false and an empty `NOT IN` is true,
also of NULL.

Whether a value goes with a column is decided behind SQLAlchemy: by the bind processor of the
column's type, by the driver and by the server's operators.  `Operands` stands for them.
-/

namespace ProdkitStorage.Database

open ProdkitStorage.Foundation
open ProdkitStorage.Python

/-! ## Terms -/

/-- `FilterOperator`. -/
inductive FilterOperator where
  | eq
  | ne
  | lt
  | lte
  | gt
  | gte
  | in_
  | notIn
  | isNull
  | contains
  | startsWith
  | endsWith
deriving DecidableEq, Repr

/-- `operator.value`. -/
def FilterOperator.value : FilterOperator → String
  | .eq => "eq"
  | .ne => "ne"
  | .lt => "lt"
  | .lte => "lte"
  | .gt => "gt"
  | .gte => "gte"
  | .in_ => "in"
  | .notIn => "not_in"
  | .isNull => "is_null"
  | .contains => "contains"
  | .startsWith => "starts_with"
  | .endsWith => "ends_with"

/-- The value of a term. -/
inductive FilterValue where
  /-- `None` or a value a column may hold. -/
  | scalar (value : Cell)
  /-- A sequence that is no text. -/
  | sequence (values : List Cell)
  /-- `bytes`, a set, a mapping: what no column of the model holds and what is no sequence. -/
  | foreign
deriving DecidableEq

/-- `FilterTerm`. -/
structure FilterTerm where
  field : String
  operator : FilterOperator
  value : FilterValue := .scalar none
deriving DecidableEq

/-! ## Criteria -/

/-- The comparison operators. -/
inductive Comparison where
  | eq
  | ne
  | lt
  | lte
  | gt
  | gte
deriving DecidableEq, Repr

/-- The comparison holds of values the database orders so. -/
def Comparison.holds : Comparison → Ordering → Bool
  | .eq, ordering => ordering == .eq
  | .ne, ordering => ordering != .eq
  | .lt, ordering => ordering == .lt
  | .lte, ordering => ordering != .gt
  | .gt, ordering => ordering == .gt
  | .gte, ordering => ordering != .lt

/-- A condition on a column, as SQLAlchemy builds it. -/
inductive Criterion (Env : Type) where
  | compare (comparison : Comparison) (expression : Column Env) (value : PyValue)
  | isNull (expression : Column Env)
  | isNotNull (expression : Column Env)
  | in_ (expression : Column Env) (values : List Cell)
  | notIn (expression : Column Env) (values : List Cell)
  /-- `expression LIKE before || text || after ESCAPE '/'`, of which `text` is bound. -/
  | like (expression : Column Env) (before text after : List Char)
  /-- A comparison with an array or another value the column cannot hold. -/
  | mismatch (comparison : Comparison) (expression : Column Env)

/-- The wildcards of `LIKE ... ESCAPE '/'`. -/
def likeWildcards : Wildcards Char where
  many := '%'
  one := '_'
  escape := '/'
  many_ne_one := by decide
  many_ne_escape := by decide
  one_ne_escape := by decide

/-- The values that may stand beside a column of a type. -/
structure Operands where
  /-- The value may be compared with a column of the type. -/
  compares : ColumnType → Comparison → PyValue → Bool
  /-- The value may stand in a list that a column of the type is looked up in. -/
  lists : ColumnType → PyValue → Bool
  /-- A column of the type may be searched for the bound text. -/
  searches : ColumnType → List Char → Bool

/-- The statement with the criterion reaches the server, and the server takes it.  NULL goes with
every type. -/
def Criterion.wellTyped {Env : Type} (operands : Operands) : Criterion Env → Bool
  | .compare comparison expression value => operands.compares expression.type comparison value
  | .isNull _ => true
  | .isNotNull _ => true
  | .in_ expression values => values.all fun listed => listed.all (operands.lists expression.type)
  | .notIn expression values => values.all fun listed => listed.all (operands.lists expression.type)
  | .like expression _ text _ => operands.searches expression.type text
  | .mismatch _ _ => false

/-- The text of a cell in the database.  A member of a string enum is stored as its value. -/
def storedText : Cell → Option String
  | some (.str text) => some text
  | some (.strEnum _ value) => some value
  | _ => none

/-- `cell LIKE pattern`. -/
def likeTruth (pattern : List Char) (cell : Cell) : Truth :=
  match storedText cell with
  | some text => Truth.ofBool (likeWildcards.Matches pattern text.toList)
  | none => .unknown

/-- What the server makes of the condition. -/
def Criterion.truth {Env : Type} : Criterion Env → Env → Truth
  | .compare comparison expression value, env =>
      Truth.compare (fun a b => comparison.holds (expression.compare a b)) (expression.eval env)
        (some value)
  | .isNull expression, env => Truth.isNull (expression.eval env)
  | .isNotNull expression, env => Truth.isNotNull (expression.eval env)
  | .in_ expression values, env =>
      Truth.any (values.map (Truth.compare (fun a b => expression.compare a b == .eq)
        (expression.eval env)))
  | .notIn expression values, env =>
      Truth.all (values.map (Truth.compare (fun a b => expression.compare a b != .eq)
        (expression.eval env)))
  | .like expression before text after, env =>
      likeTruth (before ++ (text ++ after)) (expression.eval env)
  | .mismatch _ _, _ => .unknown

/-! ## Fields -/

/-- `FilterField`, after `__post_init__`. -/
structure FilterField (Env : Type) where
  name : String
  expression : Column Env
  operators : List FilterOperator
  name_public : isPublicName name = true
  operators_nonempty : operators ≠ []

variable {Db Env Row : Type}

/-- `FilterField(...)`. -/
def FilterField.make (name : String) (expression : Column Env)
    (operators : List FilterOperator := [.eq]) : Except PyError (FilterField Env) :=
  if hname : isPublicName name = true then
    if hoperators : operators = [] then
      .error (.valueError "filter fields must allow at least one operator")
    else .ok ⟨name, expression, operators, hname, hoperators⟩
  else .error (.valueError "filter field names must be public non-empty names")

/-- `FilterRegistry`.  A mapping has each key once. -/
structure FilterRegistry (Env : Type) where
  fields : List (FilterField Env)
  fields_nonempty : fields ≠ []
  distinct : (fields.map FilterField.name).Nodup

/-- The body of the loop of `FilterRegistry.__init__`. -/
def normalizeField (name : String) (field : FilterField Env ⊕ Column Env) :
    Except PyError (FilterField Env) :=
  if isPublicName name then
    match field with
    | .inl field =>
        if field.name = name then .ok field
        else .error (.valueError "filter field mapping key must match FilterField.name")
    | .inr expression => FilterField.make name expression
  else .error (.valueError "filter field names must be public non-empty names")

/-- A normalized field goes by the key it was given under. -/
theorem normalizeField_name {name : String} {field : FilterField Env ⊕ Column Env}
    {normalized : FilterField Env} (h : normalizeField name field = .ok normalized) :
    normalized.name = name := by
  simp only [normalizeField] at h
  split at h
  · next hpublic =>
      cases field with
      | inl field =>
          simp only at h
          split at h
          · next hname =>
              obtain rfl := Except.ok.inj h
              exact hname
          · cases h
      | inr expression =>
          simp [FilterField.make, hpublic] at h
          rw [← h]
  · cases h

theorem normalizeField_names {fields : List (String × (FilterField Env ⊕ Column Env))}
    {normalized : List (FilterField Env)}
    (h : fields.mapM (fun entry => normalizeField entry.1 entry.2) = .ok normalized) :
    normalized.map FilterField.name = fields.map Prod.fst := by
  rw [mapM_eq_ok] at h
  induction h with
  | nil => rfl
  | cons hfield _ ih => simp [normalizeField_name hfield, ih]

/-- `FilterRegistry(fields)`. -/
def FilterRegistry.make (fields : List (String × (FilterField Env ⊕ Column Env)))
    (hkeys : (fields.map Prod.fst).Nodup) : Except PyError (FilterRegistry Env) :=
  if hempty : fields = [] then .error (.valueError "at least one filter field is required")
  else match h : fields.mapM (fun entry => normalizeField entry.1 entry.2) with
    | .error e => .error e
    | .ok normalized => .ok {
        fields := normalized
        fields_nonempty := by
          intro hnil
          have hnames := normalizeField_names h
          rw [hnil, List.map_nil, eq_comm, List.map_eq_nil_iff] at hnames
          exact hempty hnames
        distinct := by rw [normalizeField_names h]; exact hkeys }

/-! ## Resolution -/

/-- What a request with filters raises. -/
inductive FilterError where
  | valueError (message : String)
  /-- `sqlalchemy.exc.ArgumentError`. -/
  | argumentError (message : String)
  /-- A bind processor, the driver or the server rejects the statement. -/
  | databaseError
deriving DecidableEq, Repr

/-- `expression <comparison> value`. -/
def compareColumn (comparison : Comparison) (expression : Column Env) :
    FilterValue → Except FilterError (Criterion Env)
  | .scalar none => constant comparison (.ok (.isNull expression)) (.ok (.isNotNull expression))
  | .scalar (some (.bool b)) =>
      constant comparison (.ok (.compare .eq expression (.bool b)))
        (.ok (.compare .ne expression (.bool b)))
  | .scalar (some value) => .ok (.compare comparison expression value)
  | .sequence _ => .ok (.mismatch comparison expression)
  | .foreign => .ok (.mismatch comparison expression)
where
  /-- Only equality is allowed with `None`, `True` and `False`. -/
  constant (comparison : Comparison) (eq ne : Except FilterError (Criterion Env)) :
      Except FilterError (Criterion Env) :=
    match comparison with
    | .eq => eq
    | .ne => ne
    | _ => .error (.argumentError onlyEquality)

/-- `_require_sequence`. -/
def requireSequence (value : FilterValue) (operator : FilterOperator) :
    Except FilterError (List Cell) :=
  match value with
  | .sequence values => .ok values
  | _ => .error (.valueError (operator.value ++ " filter requires a non-string sequence"))

/-- `_require_string`. -/
def requireString (value : FilterValue) (operator : FilterOperator) :
    Except FilterError String :=
  match value with
  | .scalar (some (.str text)) => .ok text
  | _ => .error (.valueError (operator.value ++ " filter requires a string value"))

/-- `value.replace(c, by_)` of a single character. -/
def replaceChar (c : Char) (by_ cs : List Char) : List Char :=
  cs.flatMap fun d => if d = c then by_ else [d]

/-- The text SQLAlchemy binds with `autoescape=True`. -/
def autoescape (value : String) : List Char :=
  replaceChar '_' ['/', '_'] (replaceChar '%' ['/', '%'] (replaceChar '/' ['/', '/'] value.toList))

/-- The criterion of an operator that the field allows. -/
def resolveOperator (expression : Column Env) (operator : FilterOperator) (value : FilterValue) :
    Except FilterError (Criterion Env) :=
  match operator with
  | .eq => compareColumn .eq expression value
  | .ne => compareColumn .ne expression value
  | .lt => compareColumn .lt expression value
  | .lte => compareColumn .lte expression value
  | .gt => compareColumn .gt expression value
  | .gte => compareColumn .gte expression value
  | .in_ => do return .in_ expression (← requireSequence value operator)
  | .notIn => do return .notIn expression (← requireSequence value operator)
  | .isNull =>
      match value with
      | .scalar (some (.bool true)) => .ok (.isNull expression)
      | .scalar (some (.bool false)) => .ok (.isNotNull expression)
      | _ => .error (.valueError "is_null filter requires a boolean value")
  | .contains => do
      return .like expression ['%'] (autoescape (← requireString value operator)) ['%']
  | .startsWith => do
      return .like expression [] (autoescape (← requireString value operator)) ['%']
  | .endsWith => do
      return .like expression ['%'] (autoescape (← requireString value operator)) []

namespace FilterRegistry

/-- `names`. -/
def names (registry : FilterRegistry Env) : List String := registry.fields.map FilterField.name

/-- `self._fields[name]`. -/
def field? (registry : FilterRegistry Env) (name : String) : Option (FilterField Env) :=
  registry.fields.find? fun field => field.name == name

/-- `_resolve_term`. -/
def resolveTerm (registry : FilterRegistry Env) (term : FilterTerm) :
    Except FilterError (Criterion Env) :=
  match registry.field? term.field with
  | none => .error (.valueError ("unsupported filter field: " ++ term.field))
  | some field =>
      if term.operator ∈ field.operators then
        resolveOperator field.expression term.operator term.value
      else .error (.valueError ("operator " ++ pyRepr term.operator.value ++
        " is not allowed for " ++ pyRepr term.field))

/-- `resolve`. -/
def resolve (registry : FilterRegistry Env) (terms : List FilterTerm) :
    Except FilterError (List (Criterion Env)) :=
  terms.mapM registry.resolveTerm

/-- `apply`, and `apply_filters` of the repositories. -/
def apply (registry : FilterRegistry Env) (statement : Select Db Env Row)
    (terms : List FilterTerm) : Except FilterError (Select Db Env Row) := do
  let criteria ← registry.resolve terms
  return criteria.foldl (fun statement criterion => statement.where_ criterion.truth) statement

/-- The rows of the statement `apply` returns. -/
def rows (registry : FilterRegistry Env) (operands : Operands) (statement : Select Db Env Row)
    (terms : List FilterTerm) (db : Db) : Except FilterError (List Row) := do
  let criteria ← registry.resolve terms
  let filtered ← registry.apply statement terms
  if criteria.all (Criterion.wellTyped operands) then return filtered.execute db
  else .error .databaseError

end FilterRegistry

end ProdkitStorage.Database
