import ProdkitStorage.Database.Pagination

/-!
# Legacy pages

The branch of `paginate_sync` with an order column and an id column:
`_prepare_legacy_query` and `_build_legacy_page` of `database/pagination.py`.  The
boundary is a SQL row comparison, which looks at the first pair of values that are
unequal or NULL and is unknown when one of them is NULL.  `ORDER BY` places NULL after
all values in ascending order and before them in descending order, the default of
PostgreSQL.
-/

namespace ProdkitStorage.Database

open ProdkitStorage.Foundation
open ProdkitStorage.Python

variable {Db Env Row Id : Type}

/-! ## The query -/

/-- How the row `(first, second)` compares with a row of two values, `none` for unknown. -/
def compareRow (first second : Column Env) (position tieBreaker : Cell) (env : Env) :
    Option Ordering :=
  match first.eval env, position with
  | some a, some b =>
      match first.compare a b with
      | .eq =>
          match second.eval env, tieBreaker with
          | some c, some d => some (second.compare c d)
          | _, _ => none
      | unequal => some unequal
  | _, _ => none

/-- `boundary < values if direction == "desc" else boundary > values`. -/
def legacyBoundary (orderColumn idColumn : Column Env) (direction : SortDirection)
    (position tieBreaker : Cell) (env : Env) : Truth :=
  match compareRow orderColumn idColumn position tieBreaker env with
  | none => .unknown
  | some ordering =>
      match direction with
      | .desc => .ofBool (ordering == .lt)
      | .asc => .ofBool (ordering == .gt)

/-- The order of the cells `ordering(column)` asks for. -/
def legacyCompareCells (column : Column Env) (direction : SortDirection) : Cell → Cell → Ordering :=
  placeNulls (direction = .desc) (match direction with
    | .desc => descending column.compare
    | .asc => column.compare)

/-- `ordering(column)`. -/
def legacyOrder (column : Column Env) (direction : SortDirection) (a b : Env) : Ordering :=
  legacyCompareCells column direction (column.eval a) (column.eval b)

/-- The statement of a page, restricted to what comes after the cursor. -/
def afterLegacyCursor (lib : Primitives) (codec : CursorCodec) (orderColumn idColumn : Column Env)
    (direction : SortDirection) (statement : Select Db Env Row) :
    Option String → Except PyError (Select Db Env Row)
  | none => .ok statement
  | some cursor => do
      let (position, tieBreaker) ← codec.decode lib cursor
      let position ← coerce lib orderColumn.type position
      let tieBreaker ← coerce lib idColumn.type tieBreaker
      return statement.where_ (legacyBoundary orderColumn idColumn direction position tieBreaker)

/-- `_prepare_legacy_query`. -/
def prepareLegacyQuery (lib : Primitives) (codec : CursorCodec) (orderColumn idColumn : Column Env)
    (direction : SortDirection) (statement : Select Db Env Row) (cursor : Option String)
    (limit : Int) : Except PyError (Select Db Env Row) := do
  validateLimit limit
  let query ← afterLegacyCursor lib codec orderColumn idColumn direction statement cursor
  let ordered := query.addOrder [legacyOrder orderColumn direction, legacyOrder idColumn direction]
  return ordered.withLimit (limit.toNat + 1)

/-! ## The page -/

/-- `_mapped_attribute_name`. -/
def mappedAttributeName (column : Column Env) (argument : String) : Except PyError String :=
  match column.key with
  | some key =>
      if key = "" then
        .error (.valueError (argument ++ " must be a mapped column with an attribute key"))
      else .ok key
  | none => .error (.valueError (argument ++ " must be a mapped column with an attribute key"))

/-- The cursor of a page that is not the last one. -/
def legacyCursorAfter (lib : Primitives) (orm : Orm Row Id) (codec : CursorCodec)
    (orderColumn idColumn : Column Env) (last : Row) : Except PyError String := do
  let orderAttribute ← mappedAttributeName orderColumn "order_column"
  let idAttribute ← mappedAttributeName idColumn "id_column"
  let position ← orm.getattr last orderAttribute
  let tieBreaker ← orm.getattr last idAttribute
  codec.encode lib position tieBreaker

/-- `_build_legacy_page`. -/
def buildLegacyPage (lib : Primitives) (orm : Orm Row Id) (codec : CursorCodec)
    (orderColumn idColumn : Column Env) (limit : Int) (rows : List Row) :
    Except PyError (CursorPage Row) :=
  buildPage (legacyCursorAfter lib orm codec orderColumn idColumn) limit rows

/-- `paginate_sync` with an order column and an id column. -/
def paginateLegacySync [DecidableEq Id] (lib : Primitives) (orm : Orm Row Id) (codec : CursorCodec)
    (orderColumn idColumn : Column Env) (direction : SortDirection) (statement : Select Db Env Row)
    (db : Db) (cursor : Option String) (limit : Int) : Except PyError (CursorPage Row) := do
  let query ← prepareLegacyQuery lib codec orderColumn idColumn direction statement cursor limit
  let rows := uniqueScalars orm (query.execute db)
  buildLegacyPage lib orm codec orderColumn idColumn limit rows

end ProdkitStorage.Database
