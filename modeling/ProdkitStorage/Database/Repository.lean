import ProdkitStorage.Database.Pagination

/-!
# Repositories

The reads of `database/repository.py`.  `SyncRepository` and `AsyncRepository`
have the same bodies; the second awaits its session.  A session reads the
committed tables and knows which rows other transactions have locked.

A statement of a caller may select the mapped class, or an alias of it.  The
soft-delete filter names the column of the mapped class: a statement whose `FROM`
has no row of that class gets one, joined with everything.
-/

namespace ProdkitStorage.Database

open ProdkitStorage.Foundation
open ProdkitStorage.Python

/-! ## Models and statements -/

/-- A mapped class.  `deletedAt` is there for a subclass of `SoftDeleteMixin`. -/
structure Model (Db Row Id : Type) where
  name : String
  table : Db → List Row
  id : Row → Id
  deletedAt : Option (Row → Option Datetime)

variable {Db Env Row Id : Type}

/-- The row is not soft-deleted. -/
def Model.isLive (model : Model Db Row Id) (row : Row) : Bool :=
  match model.deletedAt with
  | none => true
  | some deletedAt => (deletedAt row).isNone

/-- A statement of a caller.  `mapped` reads the row of the mapped class, `none` when the statement
selects from aliases only. -/
structure CallerStatement (Db Env Row : Type) where
  select : Select Db Env Row
  mapped : Option (Env → Row)

/-- A statement that will be executed. -/
structure Query (Db Row : Type) where
  Env : Type
  select : Select Db Env Row

/-- The rows of a query. -/
def Query.execute (query : Query Db Row) (db : Db) : List Row := query.select.execute db

/-- `count_subquery` of a query. -/
def Query.countSubquery (query : Query Db Row) : Query Db Row :=
  ⟨query.Env, ProdkitStorage.Database.countSubquery query.select⟩

/-- A count statement of a caller: the rows it counts, and the value it has for them, such as their
number or that of the different ones. -/
structure CountStatement (Db Row : Type) where
  query : Query Db Row
  aggregate : List Row → Option Int

/-- `session.scalar(count_statement)`. -/
def CountStatement.scalar (statement : CountStatement Db Row) (db : Db) : Option Int :=
  statement.aggregate (statement.query.execute db)

/-- The statement with another table in its `FROM` clause, joined without a condition. -/
def crossJoin (statement : Select Db Env Row) (table : Db → List Row) :
    Select Db (Env × Row) Row where
  source db := (statement.source db).product (table db)
  criteria := statement.criteria.map fun condition env => condition env.1
  orderBy := statement.orderBy.map fun cmp a b => cmp a.1 b.1
  offset := statement.offset
  limit := statement.limit
  entity env := statement.entity env.1

/-! ## Row locks -/

/-- `RowLock`, after `__post_init__`. -/
structure RowLock where
  nowait : Bool
  skipLocked : Bool
  exclusive : ¬(nowait = true ∧ skipLocked = true)

/-- `RowLock(...)`. -/
def RowLock.make (nowait skipLocked : Bool) : Except PyError RowLock :=
  if h : nowait = true ∧ skipLocked = true then
    .error (.valueError "nowait and skip_locked cannot both be enabled")
  else .ok ⟨nowait, skipLocked, h⟩

/-- The lock arguments of `get`. -/
structure LockArguments where
  forUpdate : Bool := false
  nowait : Bool := false
  skipLocked : Bool := false
  lock : Option RowLock := none

/-- The lock `get` asks for. -/
def LockArguments.resolve (arguments : LockArguments) : Except PyError (Option RowLock) :=
  match arguments.lock with
  | some lock =>
      if arguments.forUpdate || arguments.nowait || arguments.skipLocked then
        .error (.valueError "lock cannot be combined with legacy row-lock arguments")
      else .ok (some lock)
  | none =>
      if arguments.forUpdate then do
        let lock ← RowLock.make arguments.nowait arguments.skipLocked
        return some lock
      else if arguments.nowait || arguments.skipLocked then
        .error (.valueError "nowait and skip_locked require for_update=True")
      else .ok none

/-- What a session reads: the tables, and which rows other transactions have locked. -/
structure ReadSession (Db Row : Type) where
  db : Db
  locked : Row → Bool

/-- The rows of `SELECT ... FOR UPDATE`. -/
def lockRows (locked : Row → Bool) (lock : Option RowLock) (rows : List Row) :
    Except PyError (List Row) :=
  match lock with
  | none => .ok rows
  | some lock =>
      if lock.skipLocked then .ok (rows.filter fun row => !locked row)
      else if lock.nowait && rows.any locked then
        .error (.databaseError "could not obtain lock on row")
      else .ok rows

/-! ## Results -/

/-- `result.scalar_one()`. -/
def scalarOne : List Row → Except PyError Row
  | [] => .error .noResultFound
  | [row] => .ok row
  | _ => .error .multipleResultsFound

/-- `result.scalar_one_or_none()`. -/
def scalarOneOrNone : List Row → Except PyError (Option Row)
  | [] => .ok none
  | [row] => .ok (some row)
  | _ => .error .multipleResultsFound

/-! ## The reads -/

/-- `SyncRepository` and `AsyncRepository`. -/
structure Repository (Db Row Id : Type) where
  model : Model Db Row Id
  orm : Orm Row Id

namespace Repository

variable [DecidableEq Id] (repo : Repository Db Row Id)

/-- `_apply_soft_delete`, for a statement whose environments have a row of the mapped class. -/
def filterDeleted (statement : Select Db Env Row) (mapped : Env → Row) (includeDeleted : Bool) :
    Select Db Env Row :=
  match includeDeleted, repo.model.deletedAt with
  | false, some deletedAt => statement.where_ fun env => Truth.isNull (deletedAt (mapped env))
  | _, _ => statement

/-- `_apply_soft_delete`. -/
def applySoftDelete (statement : CallerStatement Db Env Row) (includeDeleted : Bool) :
    Query Db Row :=
  match statement.mapped with
  | some mapped => ⟨Env, repo.filterDeleted statement.select mapped includeDeleted⟩
  | none =>
      if includeDeleted || repo.model.deletedAt.isNone then ⟨Env, statement.select⟩
      else ⟨Env × Row, repo.filterDeleted (crossJoin statement.select repo.model.table) Prod.snd
        includeDeleted⟩

/-- `base_statement`. -/
def baseStatement (includeDeleted : Bool) : Select Db Row Row :=
  repo.filterDeleted { source := repo.model.table, entity := id } id includeDeleted

/-- The query of `list`, `stream` and `count`. -/
def readQuery (statement : Option (CallerStatement Db Env Row)) (includeDeleted : Bool) :
    Query Db Row :=
  match statement with
  | none => ⟨Row, repo.baseStatement includeDeleted⟩
  | some statement => repo.applySoftDelete statement includeDeleted

/-- The rows of a statement of the caller, each entity once. -/
def uniqueRows (session : ReadSession Db Row) (statement : CallerStatement Db Env Row) : List Row :=
  uniqueScalars repo.orm (statement.select.execute session.db)

/-- `get_one`. -/
def getOne (session : ReadSession Db Row) (statement : CallerStatement Db Env Row) :
    Except PyError Row :=
  scalarOne (repo.uniqueRows session statement)

/-- `get_one_or_none`. -/
def getOneOrNone (session : ReadSession Db Row) (statement : CallerStatement Db Env Row) :
    Except PyError (Option Row) :=
  scalarOneOrNone (repo.uniqueRows session statement)

/-- `get_all`. -/
def getAll (session : ReadSession Db Row) (statement : CallerStatement Db Env Row) : List Row :=
  repo.uniqueRows session statement

/-- `get`. -/
def get (session : ReadSession Db Row) (identity : Id) (arguments : LockArguments)
    (includeDeleted : Bool) : Except PyError (Option Row) := do
  let statement := (repo.baseStatement includeDeleted).where_ fun row =>
    Truth.ofBool (repo.model.id row = identity)
  let lock ← arguments.resolve
  let rows ← lockRows session.locked lock (statement.execute session.db)
  scalarOneOrNone (uniqueScalars repo.orm rows)

/-- `require`. -/
def require (session : ReadSession Db Row) (identity : Id) (arguments : LockArguments)
    (includeDeleted : Bool) : Except PyError Row := do
  match ← repo.get session identity arguments includeDeleted with
  | some entity => return entity
  | none => .error (.notFoundError repo.model.name)

/-- `list`. -/
def list (session : ReadSession Db Row) (statement : Option (CallerStatement Db Env Row))
    (includeDeleted : Bool) : List Row :=
  uniqueScalars repo.orm ((repo.readQuery statement includeDeleted).execute session.db)

/-- All rows `stream` yields. -/
def stream (session : ReadSession Db Row) (statement : Option (CallerStatement Db Env Row))
    (yieldPer : Int) (includeDeleted : Bool) : Except PyError (List Row) :=
  if yieldPer < 1 then .error (.valueError "yield_per must be positive")
  else .ok ((repo.readQuery statement includeDeleted).execute session.db)

/-- The rows `count` counts. -/
def countedRows (session : ReadSession Db Row) (statement : Option (CallerStatement Db Env Row))
    (includeDeleted : Bool) : List Row :=
  (repo.readQuery statement includeDeleted).countSubquery.execute session.db

/-- `count`. -/
def count (session : ReadSession Db Row) (statement : Option (CallerStatement Db Env Row))
    (includeDeleted : Bool) : Nat :=
  (repo.countedRows session statement includeDeleted).length

/-- The rows `exists` looks for. -/
def matchingRows (session : ReadSession Db Row) (criteria : List (Row → Truth))
    (includeDeleted : Bool) : List Row :=
  (criteria.foldl Select.where_ (repo.baseStatement includeDeleted)).execute session.db

/-- `exists`. -/
def exists_ (session : ReadSession Db Row) (criteria : List (Row → Truth))
    (includeDeleted : Bool) : Bool :=
  !(repo.matchingRows session criteria includeDeleted).isEmpty

/-- `paginate_cursor`. -/
def paginateCursor (lib : Primitives) (session : ReadSession Db Row)
    (statement : CallerStatement Db Env Row) (sort : SortPlan Env Row) (codec : CursorCodec)
    (cursor : Option String) (limit : Int) (queryFingerprint : Option String) :
    Except PyError (CursorPage Row) :=
  paginateSync lib repo.orm codec sort queryFingerprint statement.select session.db cursor limit

/-- `paginate_offset`. -/
def paginateOffset (session : ReadSession Db Row) (statement : CallerStatement Db Env Row)
    (page limit : Int) (includeTotal : Bool) (countStatement : Option (CountStatement Db Row)) :
    Except PyError (OffsetPage Row) :=
  paginateOffsetSync repo.orm statement.select session.db page limit includeTotal
    (countStatement.map CountStatement.scalar)

/-- The rows the total of `paginate_offset` counts. -/
def totalledRows (session : ReadSession Db Row) (statement : CallerStatement Db Env Row)
    (includeTotal : Bool) (countStatement : Option (CountStatement Db Row)) : List Row :=
  match includeTotal, countStatement with
  | false, _ => []
  | true, some given => given.query.execute session.db
  | true, none => (countSubquery statement.select).execute session.db

end Repository

end ProdkitStorage.Database
