import ProdkitStorage.Foundation.Json
import ProdkitStorage.Python.Datetime
import ProdkitStorage.Python.Decimal
import ProdkitStorage.Python.Error
import ProdkitStorage.Python.Uuid

/-!
# Values of columns

The Python values a column may hold, other than `None`: a cell is an
`Option PyValue`.  `ColumnType` is the SQLAlchemy type of the column with what
decides its `python_type`, and `Holds` says which values a column of the type
has in PostgreSQL.
-/

namespace ProdkitStorage.Python

open ProdkitStorage.Foundation

/-- `float`. -/
inductive PyFloat where
  | finite (x : FiniteDouble)
  | infinity (negative : Bool)
  | nan
deriving DecidableEq, Repr

/-- The float has a text in JSON. -/
def PyFloat.isFinite : PyFloat → Bool
  | .finite _ => true
  | _ => false

/-- A Python value other than `None`.  A member of an enum is its class and its value. -/
inductive PyValue where
  | bool (b : Bool)
  | int (n : Int)
  | float (x : PyFloat)
  | decimal (d : PyDecimal)
  | str (s : String)
  | uuid (u : Uuid)
  | datetime (d : Datetime)
  | date (d : Date)
  | time (t : Time)
  | strEnum (className value : String)
  | intEnum (className : String) (value : Int)
deriving DecidableEq, Repr

/-- The type of a column.  `other` stands for every type that is not listed. -/
inductive ColumnType where
  | boolean
  | integer
  | bigInteger
  | float (asdecimal : Bool)
  | numeric (asdecimal : Bool)
  | string
  | uuid (asUuid : Bool)
  | dateTime (timezone : Bool)
  | date
  | time (timezone : Bool)
  /-- `StringEnumType`, with the name and the values of its class. -/
  | stringEnum (className : String) (members : List String)
  /-- `IntegerEnumType`, with the name and the values of its class. -/
  | integerEnum (className : String) (members : List Int)
  | other (name : String)
deriving DecidableEq, Repr

/-- A column of the type may hold the value. -/
inductive ColumnType.Holds : ColumnType → PyValue → Prop where
  | boolean (b : Bool) : Holds .boolean (.bool b)
  | integer {n : Int} : -2 ^ 31 ≤ n → n < 2 ^ 31 → Holds .integer (.int n)
  | bigInteger {n : Int} : -2 ^ 63 ≤ n → n < 2 ^ 63 → Holds .bigInteger (.int n)
  | float (x : PyFloat) : Holds (.float false) (.float x)
  | floatDecimal (d : PyDecimal) : Holds (.float true) (.decimal d)
  | numericFloat (x : PyFloat) : Holds (.numeric false) (.float x)
  | numeric (d : PyDecimal) : Holds (.numeric true) (.decimal d)
  | string (s : String) : Holds .string (.str s)
  | uuid (u : Uuid) : Holds (.uuid true) (.uuid u)
  | uuidString (s : String) : Holds (.uuid false) (.str s)
  | dateTime (d : Datetime) : Holds (.dateTime d.offset.isSome) (.datetime d)
  | date (d : Date) : Holds .date (.date d)
  | time (t : Time) : Holds (.time t.offset.isSome) (.time t)
  | stringEnum {className : String} {members : List String} {s : String} :
      s ∈ members → Holds (.stringEnum className members) (.strEnum className s)
  | integerEnum {className : String} {members : List Int} {n : Int} :
      n ∈ members → -2 ^ 31 ≤ n → n < 2 ^ 31 →
        Holds (.integerEnum className members) (.intEnum className n)

/-- A cell of a column: NULL or a value of its type. -/
def ColumnType.HoldsCell (type : ColumnType) (cell : Option PyValue) : Prop :=
  ∀ value, cell = some value → type.Holds value

end ProdkitStorage.Python
