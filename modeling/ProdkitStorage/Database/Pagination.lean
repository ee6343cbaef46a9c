import ProdkitStorage.Database.Boundary
import ProdkitStorage.Database.Cursor
import ProdkitStorage.Foundation.Binary64

/-!
# Pages

`_prepare_sorted_query`, `_build_sorted_page`, the sorted branch of
`paginate_sync` and `paginate_offset_sync` in `database/pagination.py`; their
asynchronous twins do the same with an awaited session.

The session of the caller keeps the objects it has loaded.  Its factory sets
`expire_on_commit=False` and no query here asks for `populate_existing`, so a row
whose entity the session still holds is returned as the object it holds, with the
attributes this object has (`IdentityMap.object`).
-/

namespace ProdkitStorage.Database

open ProdkitStorage.Foundation
open ProdkitStorage.Python

/-- `CursorPage`. -/
structure CursorPage (Row : Type) where
  items : List Row
  nextCursor : Option String
  hasMore : Bool
deriving Repr

/-- What the ORM tells about row objects: their attributes, and which of them are one entity. -/
structure Orm (Row Id : Type) where
  getattr : GetAttr Row
  identity : Row → Id

/-- The objects a session holds, by the entity they are. -/
structure IdentityMap {Row Id : Type} (orm : Orm Row Id) where
  held : Id → Option Row
  identity_held : ∀ {id row}, held id = some row → orm.identity row = id

namespace IdentityMap

variable {Row Id : Type} {orm : Orm Row Id}

/-- A session that holds nothing. -/
def empty : IdentityMap orm := ⟨fun _ => none, nofun⟩

/-- The object a query returns for a row: the one that is held, as it is, or a new one. -/
def object (session : IdentityMap orm) (row : Row) : Row :=
  (session.held (orm.identity row)).getD row

/-- The session after a query has read these rows. -/
def load [DecidableEq Id] (session : IdentityMap orm) (rows : List Row) : IdentityMap orm where
  held id := session.held id <|> rows.find? fun row => orm.identity row = id
  identity_held {id row} h := by
    cases hheld : session.held id with
    | some old =>
        rw [hheld] at h
        obtain rfl := Option.some.inj h
        exact session.identity_held hheld
    | none =>
        rw [hheld] at h
        simpa using List.find?_some h

@[simp] theorem identity_object (session : IdentityMap orm) (row : Row) :
    orm.identity (session.object row) = orm.identity row := by
  cases hheld : session.held (orm.identity row) with
  | none => simp [object, hheld]
  | some old => simpa [object, hheld] using session.identity_held hheld

@[simp] theorem map_object_empty (rows : List Row) :
    rows.map (empty : IdentityMap orm).object = rows :=
  List.map_id _

end IdentityMap

/-- `_validate_limit`. -/
def validateLimit (limit : Int) : Except PyError Unit :=
  if 1 ≤ limit ∧ limit ≤ 500 then .ok ()
  else .error (.valueError "limit must be between 1 and 500")

/-- The rows that are no entity in `seen` and none that came before. -/
def uniqueAfter {Row Id : Type} [DecidableEq Id] (identity : Row → Id) (seen : List Id) :
    List Row → List Row
  | [] => []
  | row :: rows =>
      if identity row ∈ seen then uniqueAfter identity seen rows
      else row :: uniqueAfter identity (identity row :: seen) rows

/-- `_unique_scalars`. -/
def uniqueScalars {Row Id : Type} [DecidableEq Id] (orm : Orm Row Id) (rows : List Row) :
    List Row :=
  uniqueAfter orm.identity [] rows

variable {Db Env Row Id : Type}

/-- The values of a cursor, after the checks of `_prepare_sorted_query`. -/
def cursorValues (lib : Primitives) (codec : CursorCodec) (sort : SortPlan Env Row)
    (queryFingerprint : Option String) (cursor : String) : Except PyError (List Cell) := do
  let state ← codec.decodeState lib cursor
  if state.sortFingerprint ≠ sort.fingerprint then
    .error (.valueError "cursor sorting does not match the active sorting")
  else if state.queryFingerprint ≠ queryFingerprint then
    .error (.valueError "cursor query does not match the active query")
  else if state.values.length ≠ sort.terms.length then
    .error (.valueError "cursor value count does not match the active sorting")
  else (sort.terms.zip state.values).mapM fun (term, value) =>
    coerce lib term.field.expression.type value

/-- The statement of a page, restricted to what comes after the cursor. -/
def afterCursor (lib : Primitives) (codec : CursorCodec) (sort : SortPlan Env Row)
    (queryFingerprint : Option String) (statement : Select Db Env Row) :
    Option String → Except PyError (Select Db Env Row)
  | none => .ok statement
  | some cursor => do
      let values ← cursorValues lib codec sort queryFingerprint cursor
      let condition ← sort.boundary values
      return statement.where_ condition

/-- `_prepare_sorted_query`. -/
def prepareSortedQuery (lib : Primitives) (codec : CursorCodec) (sort : SortPlan Env Row)
    (queryFingerprint : Option String) (statement : Select Db Env Row) (cursor : Option String)
    (limit : Int) : Except PyError (Select Db Env Row) := do
  validateLimit limit
  let query ← afterCursor lib codec sort queryFingerprint statement cursor
  return (sort.apply query).withLimit (limit.toNat + 1)

/-- The cursor of a page that is not the last one. -/
def cursorAfter (lib : Primitives) (orm : Orm Row Id) (codec : CursorCodec)
    (sort : SortPlan Env Row) (queryFingerprint : Option String) (last : Row) :
    Except PyError String := do
  let values ← sort.valuesFrom orm.getattr last
  codec.encodeState lib ⟨sort.fingerprint, values, queryFingerprint⟩

/-- What `_build_sorted_page` and `_build_legacy_page` do, up to the cursor after the last row. -/
def buildPage (cursorAfter : Row → Except PyError String) (limit : Int) (rows : List Row) :
    Except PyError (CursorPage Row) :=
  let hasMore := decide (limit.toNat < rows.length)
  let items := rows.take limit.toNat
  match hasMore, items.getLast? with
  | true, some last => do
      let nextCursor ← cursorAfter last
      return ⟨items, some nextCursor, hasMore⟩
  | _, _ => .ok ⟨items, none, hasMore⟩

/-- `_build_sorted_page`. -/
def buildSortedPage (lib : Primitives) (orm : Orm Row Id) (codec : CursorCodec)
    (sort : SortPlan Env Row) (queryFingerprint : Option String) (limit : Int) (rows : List Row) :
    Except PyError (CursorPage Row) :=
  buildPage (cursorAfter lib orm codec sort queryFingerprint) limit rows

/-- `paginate_sync` with a sort plan, in the session of the caller. -/
def paginateSync [DecidableEq Id] (lib : Primitives) (orm : Orm Row Id) (codec : CursorCodec)
    (sort : SortPlan Env Row) (queryFingerprint : Option String) (statement : Select Db Env Row)
    (db : Db) (cursor : Option String) (limit : Int) (session : IdentityMap orm := .empty) :
    Except PyError (CursorPage Row) := do
  let query ← prepareSortedQuery lib codec sort queryFingerprint statement cursor limit
  let rows := uniqueScalars orm ((query.execute db).map session.object)
  buildSortedPage lib orm codec sort queryFingerprint limit rows

/-! ## Offset pages -/

/-- `OffsetPage`. -/
structure OffsetPage (Row : Type) where
  items : List Row
  page : Int
  limit : Int
  totalCount : Option Int
  totalPages : Option Int
  hasNextPage : Bool
  hasPreviousPage : Bool
deriving Repr

/-- `_validate_offset`. -/
def validateOffset (page limit : Int) : Except PyError Unit :=
  if page < 1 then .error (.valueError "page must be positive") else validateLimit limit

/-- `count_subquery`. -/
def countSubquery (statement : Select Db Env Row) : Select Db Env Row :=
  { statement with orderBy := [] }

/-- `_count_sync`.  A count statement of the caller is a scalar query of its own. -/
def countSync (statement : Select Db Env Row) (countStatement : Option (Db → Option Int))
    (db : Db) : Int :=
  match countStatement with
  | some query => (query db).getD 0
  | none => ((countSubquery statement).execute db).length

/-- `math.ceil(count / limit)`.  The quotient of two `int` is the float nearest to it. -/
def ceilDiv (count limit : Int) : Int := ⌈binary64 ((count : ℚ) / limit)⌉

/-- `_offset_page`. -/
def offsetPage (items : List Row) (page limit : Int) (totalCount : Option Int)
    (hasNextPage : Bool) : OffsetPage Row where
  items := items
  page := page
  limit := limit
  totalCount := totalCount
  totalPages := totalCount.map fun count => ceilDiv count limit
  hasNextPage := hasNextPage
  hasPreviousPage := decide (1 < page)

/-- The query of an offset page. -/
def offsetQuery (statement : Select Db Env Row) (page limit : Int) (includeTotal : Bool) :
    Select Db Env Row :=
  let fetchLimit := if includeTotal then limit else limit + 1
  (statement.withOffset ((page - 1) * limit).toNat).withLimit fetchLimit.toNat

/-- `paginate_offset_sync`; `paginate_offset_async` does the same. -/
def paginateOffsetSync [DecidableEq Id] (orm : Orm Row Id) (statement : Select Db Env Row) (db : Db)
    (page limit : Int) (includeTotal : Bool) (countStatement : Option (Db → Option Int)) :
    Except PyError (OffsetPage Row) := do
  validateOffset page limit
  let totalCount := if includeTotal then some (countSync statement countStatement db) else none
  let rows := uniqueScalars orm ((offsetQuery statement page limit includeTotal).execute db)
  let hasNextPage := match totalCount with
    | some count => decide (page < ceilDiv count limit)
    | none => decide (limit.toNat < rows.length)
  return offsetPage (rows.take limit.toNat) page limit totalCount hasNextPage

/-! ## Facts about the parts -/

theorem validateLimit_ok {limit : Int} (h : 1 ≤ limit ∧ limit ≤ 500) :
    validateLimit limit = .ok () :=
  if_pos h

theorem range_of_validateLimit {limit : Int} (h : validateLimit limit = .ok ()) :
    1 ≤ limit ∧ limit ≤ 500 := by
  by_contra hnot
  rw [validateLimit, if_neg hnot] at h
  cases h

/-- Nothing is dropped from rows that are different entities. -/
theorem uniqueAfter_eq_self [DecidableEq Id] {identity : Row → Id} {seen : List Id}
    {rows : List Row} (hnew : ∀ row ∈ rows, identity row ∉ seen)
    (hdistinct : rows.Pairwise fun a b => identity a ≠ identity b) :
    uniqueAfter identity seen rows = rows := by
  induction rows generalizing seen with
  | nil => rfl
  | cons row rows ih =>
      rw [List.pairwise_cons] at hdistinct
      rw [uniqueAfter, if_neg (hnew row List.mem_cons_self), ih ?_ hdistinct.2]
      intro other hother hmem
      rcases List.mem_cons.mp hmem with heq | hseen
      · exact hdistinct.1 other hother heq.symm
      · exact hnew other (List.mem_cons_of_mem _ hother) hseen

theorem mem_of_mem_uniqueAfter [DecidableEq Id] {identity : Row → Id} {seen : List Id}
    {rows : List Row} {row : Row} (h : row ∈ uniqueAfter identity seen rows) : row ∈ rows := by
  induction rows generalizing seen with
  | nil => exact h
  | cons head rows ih =>
      unfold uniqueAfter at h
      split at h
      · exact List.mem_cons_of_mem _ (ih h)
      · rcases List.mem_cons.mp h with rfl | h
        · exact List.mem_cons_self
        · exact List.mem_cons_of_mem _ (ih h)

/-- Every entity of the rows is left, unless it was seen before. -/
theorem exists_mem_uniqueAfter [DecidableEq Id] {identity : Row → Id} {seen : List Id}
    {rows : List Row} {row : Row} (h : row ∈ rows) (hnew : identity row ∉ seen) :
    ∃ kept ∈ uniqueAfter identity seen rows, identity kept = identity row := by
  induction rows generalizing seen with
  | nil => cases h
  | cons head rows ih =>
      unfold uniqueAfter
      by_cases hsame : identity head = identity row
      · rw [if_neg (hsame ▸ hnew)]
        exact ⟨head, List.mem_cons_self, hsame⟩
      · have hrest : row ∈ rows := by
          rcases List.mem_cons.mp h with rfl | h
          · exact absurd rfl hsame
          · exact h
        split
        · exact ih hrest hnew
        · have hnew' : identity row ∉ identity head :: seen := by
            intro hmem
            rcases List.mem_cons.mp hmem with heq | hmem
            · exact hsame heq.symm
            · exact hnew hmem
          obtain ⟨kept, hkept, heq⟩ := ih hrest hnew'
          exact ⟨kept, List.mem_cons_of_mem _ hkept, heq⟩

theorem mem_of_mem_uniqueScalars [DecidableEq Id] {orm : Orm Row Id} {rows : List Row} {row : Row}
    (h : row ∈ uniqueScalars orm rows) : row ∈ rows :=
  mem_of_mem_uniqueAfter h

theorem uniqueScalars_eq_self [DecidableEq Id] {orm : Orm Row Id} {rows : List Row}
    (hdistinct : rows.Pairwise fun a b => orm.identity a ≠ orm.identity b) :
    uniqueScalars orm rows = rows :=
  uniqueAfter_eq_self (fun _ _ => List.not_mem_nil) hdistinct

/-- The query of a page keeps rows of the statement only. -/
theorem prepareSortedQuery_rows {lib : Primitives} {codec : CursorCodec} {sort : SortPlan Env Row}
    {queryFingerprint : Option String} {statement query : Select Db Env Row}
    {cursor : Option String} {limit : Int}
    (h : prepareSortedQuery lib codec sort queryFingerprint statement cursor limit = .ok query) :
    query.entity = statement.entity ∧
      ∀ env, query.satisfies env = true → statement.satisfies env = true := by
  obtain ⟨-, -, h⟩ := bind_eq_ok.mp h
  obtain ⟨bounded, hbounded, h⟩ := bind_eq_ok.mp h
  obtain rfl := Except.ok.inj h
  cases cursor with
  | none =>
      obtain rfl := Except.ok.inj hbounded
      exact ⟨rfl, fun _ henv => henv⟩
  | some token =>
      obtain ⟨values, -, hbounded⟩ := bind_eq_ok.mp hbounded
      obtain ⟨condition, -, hbounded⟩ := bind_eq_ok.mp hbounded
      obtain rfl := Except.ok.inj hbounded
      exact ⟨rfl, fun _ henv => (Select.satisfies_where.mp henv).1⟩

/-- The items of a page and its count, and where its cursor comes from. -/
theorem buildPage_ok {cursorAfter : Row → Except PyError String} {limit : Int} {rows : List Row}
    {page : CursorPage Row} (h : buildPage cursorAfter limit rows = .ok page) :
    page.items = rows.take limit.toNat ∧ page.hasMore = decide (limit.toNat < rows.length) ∧
      ∀ token, page.nextCursor = some token → page.hasMore = true ∧
        ∃ last, page.items.getLast? = some last ∧ cursorAfter last = .ok token := by
  unfold buildPage at h
  dsimp only at h
  split at h
  · rename_i last hmore hlast
    obtain ⟨token, htoken, h⟩ := bind_eq_ok.mp h
    obtain rfl := Except.ok.inj h
    refine ⟨rfl, rfl, ?_⟩
    rintro _ hnext
    obtain rfl := Option.some.inj hnext
    exact ⟨hmore, last, hlast, htoken⟩
  · obtain rfl := Except.ok.inj h
    exact ⟨rfl, rfl, nofun⟩

/-- The items of a page are rows of the statement. -/
theorem paginateSync_items [DecidableEq Id] {lib : Primitives} {orm : Orm Row Id}
    {codec : CursorCodec} {sort : SortPlan Env Row} {queryFingerprint : Option String}
    {statement : Select Db Env Row} {db : Db} {cursor : Option String} {limit : Int}
    {page : CursorPage Row}
    (h : paginateSync lib orm codec sort queryFingerprint statement db cursor limit = .ok page) :
    ∀ row ∈ page.items, ∃ env, statement.satisfies env = true ∧ statement.entity env = row := by
  obtain ⟨query, hquery, h⟩ := bind_eq_ok.mp h
  obtain ⟨hentity, hsatisfies⟩ := prepareSortedQuery_rows hquery
  intro row hrow
  rw [(buildPage_ok h).1, IdentityMap.map_object_empty] at hrow
  obtain ⟨env, -, henv, hrow⟩ :=
    Select.mem_execute (mem_of_mem_uniqueScalars (List.mem_of_mem_take hrow))
  exact ⟨env, hsatisfies env henv, hentity ▸ hrow⟩

/-- The items of an offset page are rows of the statement. -/
theorem paginateOffsetSync_items [DecidableEq Id] {orm : Orm Row Id}
    {statement : Select Db Env Row} {db : Db} {page limit : Int} {includeTotal : Bool}
    {countStatement : Option (Db → Option Int)} {result : OffsetPage Row}
    (h : paginateOffsetSync orm statement db page limit includeTotal countStatement = .ok result) :
    ∀ row ∈ result.items, ∃ env, statement.satisfies env = true ∧ statement.entity env = row := by
  obtain ⟨-, -, h⟩ := bind_eq_ok.mp h
  obtain rfl := Except.ok.inj h
  intro row hrow
  obtain ⟨env, -, henv, hrow⟩ :=
    Select.mem_execute (mem_of_mem_uniqueScalars (List.mem_of_mem_take hrow))
  exact ⟨env, henv, hrow⟩

end ProdkitStorage.Database
