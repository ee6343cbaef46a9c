import Mathlib.Algebra.Order.Ring.Int

/-!
# JSON values

A JSON document as a tree.  A number is an integer or a finite IEEE double: JSON
has no text for NaN or the infinities, so `Json.float` cannot hold one.  An
object is the list of its members in the order they are written.
-/

namespace ProdkitStorage.Foundation

/-- A finite IEEE double, `± mantissa · 2 ^ exponent`.  Each value is built in one way. -/
structure FiniteDouble where
  negative : Bool
  mantissa : Nat
  exponent : Int
  mantissa_lt : mantissa < 2 ^ 53
  exponent_ge : -1074 ≤ exponent
  exponent_le : exponent ≤ 971
  normal : 2 ^ 52 ≤ mantissa ∨ exponent = -1074
deriving DecidableEq, Repr

/-- The double equals the integer `n`. -/
def FiniteDouble.eqInt (x : FiniteDouble) (n : Int) : Bool :=
  let signed : Int := if x.negative then -(x.mantissa : Int) else x.mantissa
  if 0 ≤ x.exponent then decide (signed * 2 ^ x.exponent.toNat = n)
  else decide (signed = n * 2 ^ (-x.exponent).toNat)

/-- A JSON value. -/
inductive Json where
  | null
  | bool (b : Bool)
  | int (n : Int)
  | float (x : FiniteDouble)
  | str (s : String)
  | arr (items : List Json)
  | obj (members : List (String × Json))
deriving Inhabited

namespace Json

/-- `data.get(key)` on the members of an object. -/
def get (members : List (String × Json)) (key : String) : Option Json := members.lookup key

/-- `data.get(key)` on a value that should be an object. -/
def field : Json → String → Option Json
  | .obj members, key => get members key
  | _, _ => none

/-- `value == s` in Python, for a string `s`. -/
def eqStr : Option Json → String → Bool
  | some (.str t), s => t == s
  | _, _ => false

/-- `value == n` in Python, for an integer `n`: `True` is 1 and `1.0` is 1. -/
def eqInt : Option Json → Int → Bool
  | some (.int m), n => m == n
  | some (.bool b), n => (if b then 1 else 0) == n
  | some (.float x), n => x.eqInt n
  | _, _ => false

@[simp] theorem get_cons (name key : String) (j : Json) (members : List (String × Json)) :
    get ((name, j) :: members) key = if key == name then some j else get members key := by
  rw [get, List.lookup_cons]
  cases key == name <;> rfl

@[simp] theorem get_nil (key : String) : get [] key = none := rfl

@[simp] theorem field_obj (members : List (String × Json)) (key : String) :
    (obj members).field key = get members key := rfl

@[simp] theorem eqStr_str (t s : String) : eqStr (some (.str t)) s = (t == s) := rfl

@[simp] theorem eqStr_none (s : String) : eqStr none s = false := rfl

@[simp] theorem eqInt_int (m n : Int) : eqInt (some (.int m)) n = (m == n) := rfl

end Json

end ProdkitStorage.Foundation
