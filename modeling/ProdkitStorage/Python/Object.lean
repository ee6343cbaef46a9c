import ProdkitStorage.Python.Value

/-!
# Objects

Python values of the types that a JSON encoder knows, as trees.  `equals` is `==`
with a value that a JSON decoder returns: one of `None`, `bool`, `int`, finite `float`,
`str`, `list` and `dict` with keys of type `str`.
-/

namespace ProdkitStorage.Python

open ProdkitStorage.Foundation

/-- A value that is not a container. -/
inductive Leaf where
  | none
  | bool (b : Bool)
  | int (n : Int)
  | float (x : PyFloat)
  | str (s : String)
  | datetime (d : Datetime)
  | date (d : Date)
  | time (t : Time)
  | uuid (u : Uuid)
  /-- A member of an enum, or an instance of a subclass of `str` or `int`, with its value; `equal`
  when it compares as the value does, as the members of `StrEnum` and `IntEnum` do. -/
  | derived (className : String) (equal : Bool) (value : Leaf)
  | other (typeName : String)
deriving DecidableEq

/-- A value.  A dict is the list of its items in the order they were inserted, a dataclass instance
that of its attributes. -/
inductive Object where
  | leaf (value : Leaf)
  | list (items : List Object)
  | tuple (items : List Object)
  | dict (items : List (Leaf × Object))
  | dataclass (className : String) (fields : List (String × Object))
  /-- `orjson.Fragment`. -/
  | fragment (document : Json)

/-! ## Equality -/

/-- The integer a `bool` or an `int` equals. -/
def Leaf.toInt : Leaf → Option Int
  | .bool b => some (if b then 1 else 0)
  | .int n => some n
  | _ => .none

/-- `x == y`, with NaN equal to NaN. -/
def PyFloat.equals : PyFloat → PyFloat → Bool
  | .finite x, .finite y => x == y || (x.mantissa == 0 && y.mantissa == 0)
  | .infinity a, .infinity b => a == b
  | .nan, .nan => true
  | _, _ => false

/-- `x == n`. -/
def PyFloat.equalsInt : PyFloat → Int → Bool
  | .finite x, n => x.eqInt n
  | _, _ => false

/-- `value == read`, for a value `read` that a JSON decoder returns. -/
def Leaf.equals : Leaf → Leaf → Bool
  | .derived _ true value, read => value.equals read
  | .none, .none => true
  | .str s, .str t => s == t
  | .float x, .float y => x.equals y
  | .float x, read =>
      match read.toInt with
      | some n => x.equalsInt n
      | .none => false
  | value, .float y =>
      match value.toInt with
      | some n => y.equalsInt n
      | .none => false
  | value, read =>
      match value.toInt, read.toInt with
      | some m, some n => m == n
      | _, _ => false

mutual

/-- `value == read`, for a value `read` that a JSON decoder returns. -/
def Object.equals : Object → Object → Bool
  | .leaf value, .leaf read => value.equals read
  | .list items, .list read => Object.equalsAll items read
  | .dict items, .dict read => items.length == read.length && Object.equalsItems items read
  | _, _ => false

def Object.equalsAll : List Object → List Object → Bool
  | [], [] => true
  | item :: items, read :: reads => item.equals read && Object.equalsAll items reads
  | _, _ => false

/-- Every item has one with an equal key and an equal value. -/
def Object.equalsItems : List (Leaf × Object) → List (Leaf × Object) → Bool
  | [], _ => true
  | (key, value) :: items, read =>
      (match read.find? fun item => key.equals item.1 with
        | some item => value.equals item.2
        | none => false) && Object.equalsItems items read

end

/-! ## Keys -/

/-- The text of a key that equals a text. -/
def Leaf.asText : Leaf → Option String
  | .str s => some s
  | .derived _ true value => value.asText
  | _ => .none

/-- A leaf that equals a text has that text. -/
theorem Leaf.equals_str {key : Leaf} {s : String} :
    key.equals (.str s) = true ↔ key.asText = some s := by
  induction key with
  | derived className equal value ih =>
      cases equal with
      | true => exact ih
      | false => simp [equals, asText, toInt]
  | str t => simp [equals, asText]
  | none => simp [equals, asText, toInt]
  | bool b => simp [equals, asText, toInt]
  | int n => simp [equals, asText, toInt]
  | float x => simp [equals, asText, toInt]
  | datetime d => simp [equals, asText, toInt]
  | date d => simp [equals, asText, toInt]
  | time t => simp [equals, asText, toInt]
  | uuid u => simp [equals, asText, toInt]
  | other typeName => simp [equals, asText, toInt]

mutual

/-- No dict has two keys that equal one text. -/
def Object.DistinctKeys : Object → Prop
  | .list items => Object.DistinctKeysAll items
  | .tuple items => Object.DistinctKeysAll items
  | .dict items => (items.filterMap fun item => item.1.asText).Nodup ∧
      Object.DistinctKeysItems items
  | .dataclass _ fields => Object.DistinctKeysFields fields
  | _ => True

def Object.DistinctKeysAll : List Object → Prop
  | [] => True
  | item :: items => item.DistinctKeys ∧ Object.DistinctKeysAll items

def Object.DistinctKeysItems : List (Leaf × Object) → Prop
  | [] => True
  | (_, value) :: items => value.DistinctKeys ∧ Object.DistinctKeysItems items

def Object.DistinctKeysFields : List (String × Object) → Prop
  | [] => True
  | (_, value) :: fields => value.DistinctKeys ∧ Object.DistinctKeysFields fields

end

/-! ## What JSON can carry -/

/-- A leaf that a JSON document carries: nothing of its type is lost. -/
def Leaf.portable : Leaf → Bool
  | .none => true
  | .bool _ => true
  | .int _ => true
  | .float x => x.isFinite
  | .str _ => true
  | .derived _ equal value => equal && value.portable
  | _ => false

mutual

/-- A value that a JSON document carries: portable leaves in lists and in dicts whose keys are
texts. -/
def Object.portable : Object → Bool
  | .leaf value => value.portable
  | .list items => Object.portableAll items
  | .dict items => Object.portableItems items
  | _ => false

def Object.portableAll : List Object → Bool
  | [] => true
  | item :: items => item.portable && Object.portableAll items

def Object.portableItems : List (Leaf × Object) → Bool
  | [] => true
  | (key, value) :: items => key.asText.isSome && value.portable && Object.portableItems items

end

end ProdkitStorage.Python
