import Mathlib.Logic.Basic

/-!
# Three-valued logic

The truth values of SQL.  A `WHERE` clause keeps a row when its condition is
`true`; `unknown`, the value of a comparison with NULL, does not keep it.
-/

namespace ProdkitStorage.Foundation

/-- A truth value of SQL. -/
inductive Truth where
  | false
  | unknown
  | true
deriving DecidableEq, Repr

namespace Truth

/-- The truth value of a condition that is never unknown. -/
def ofBool : Bool → Truth
  | .false => .false
  | .true => .true

/-- `AND`. -/
def and : Truth → Truth → Truth
  | .false, _ => .false
  | _, .false => .false
  | .true, .true => .true
  | _, _ => .unknown

/-- `OR`. -/
def or : Truth → Truth → Truth
  | .true, _ => .true
  | _, .true => .true
  | .false, .false => .false
  | _, _ => .unknown

/-- `AND` of a list of conditions. -/
def all (conditions : List Truth) : Truth := conditions.foldr and .true

/-- `OR` of a list of conditions. -/
def any (conditions : List Truth) : Truth := conditions.foldr or .false

/-- A comparison of two columns, unknown when either is NULL. -/
def compare {α β : Type} (holds : α → β → Bool) : Option α → Option β → Truth
  | some a, some b => ofBool (holds a b)
  | _, _ => .unknown

/-- `IS NULL`. -/
def isNull {α : Type} (cell : Option α) : Truth := ofBool cell.isNone

/-- `IS NOT NULL`. -/
def isNotNull {α : Type} (cell : Option α) : Truth := ofBool cell.isSome

@[simp] theorem ofBool_eq_true {b : Bool} : ofBool b = .true ↔ b = Bool.true := by
  cases b with
  | false => simp [ofBool]
  | true => simp [ofBool]

@[simp] theorem and_eq_true {a b : Truth} : and a b = .true ↔ a = .true ∧ b = .true := by
  cases a with
  | false => simp [and]
  | unknown => cases b <;> simp [and]
  | true => cases b <;> simp [and]

@[simp] theorem or_eq_true {a b : Truth} : or a b = .true ↔ a = .true ∨ b = .true := by
  cases a with
  | false => cases b <;> simp [or]
  | unknown => cases b <;> simp [or]
  | true => simp [or]

@[simp] theorem all_nil : all [] = .true := rfl

@[simp] theorem any_nil : any [] = .false := rfl

@[simp] theorem all_cons (condition : Truth) (conditions : List Truth) :
    all (condition :: conditions) = and condition (all conditions) := rfl

@[simp] theorem any_cons (condition : Truth) (conditions : List Truth) :
    any (condition :: conditions) = or condition (any conditions) := rfl

theorem all_eq_true {conditions : List Truth} :
    all conditions = .true ↔ ∀ condition ∈ conditions, condition = .true := by
  induction conditions with
  | nil => simp
  | cons condition conditions ih => simp [ih]

theorem compare_eq_true {α β : Type} {holds : α → β → Bool} {x : Option α} {y : Option β} :
    compare holds x y = .true ↔ ∃ a b, x = some a ∧ y = some b ∧ holds a b = Bool.true := by
  cases x with
  | none => simp [compare]
  | some a =>
      cases y with
      | none => simp [compare]
      | some b => simp [compare]

end Truth

end ProdkitStorage.Foundation
