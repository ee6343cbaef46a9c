import Mathlib.Data.List.Nodup
import ProdkitStorage.Database.CursorBinding
import ProdkitStorage.Database.CursorValues
import ProdkitStorage.Database.Following
import ProdkitStorage.Database.Legacy
import ProdkitStorage.Foundation.Slices

/-!
# Following legacy cursors

A legacy cursor holds the values of the order column and the id column of the last
row.  The row comparison is true on the rows after this one only when nothing is NULL:
the value of the last row, those of the rows after it, and what the token says of the
values.  `Passes` is this condition, and a walk returns the rows of the statement in
order exactly when every row that ends a page passes (`legacy_walk_iff`).

The sorted paginator places NULL on either side of the boundary; this one does not.
-/

namespace ProdkitStorage.Database

open ProdkitStorage.Foundation
open ProdkitStorage.Python
open Std (OrientedCmp TransCmp)

variable {Db Env Row Id : Type}

/-! ## What a token says of a cell -/

/-- What is read of a cell: a float that JSON has no text for is read as NULL. -/
def readCell (type : ColumnType) (cell : Cell) : Cell :=
  if roundTrips type cell = true then cell else none

/-- Something is read of the cell: it is no value of a `Time` column. -/
def Readable : ColumnType → Cell → Prop
  | .time _, some _ => False
  | _, _ => True

theorem readable_of_roundTrips {type : ColumnType} {cell : Cell}
    (h : roundTrips type cell = true) : Readable type cell := by
  cases cell with
  | none => cases type <;> trivial
  | some value =>
      cases type with
      | time timezone => cases h
      | _ => trivial

theorem read_of_readable (lib : Primitives) {type : ColumnType} {cell : Cell}
    (hholds : type.HoldsCell cell) (hreadable : Readable type cell) :
    ∃ json, dumpCell cell = .ok json ∧ coerce lib type json = .ok (readCell type cell) := by
  cases htrips : roundTrips type cell with
  | true =>
      rw [readCell, if_pos htrips]
      exact (survives_iff hholds).mpr htrips
  | false =>
      rw [readCell, htrips, if_neg Bool.false_ne_true]
      cases cell with
      | none => cases type <;> cases htrips
      | some value =>
          cases hholds value rfl with
          | float x =>
              cases x with
              | finite x => cases htrips
              | infinity negative => exact ⟨.null, rfl, rfl⟩
              | nan => exact ⟨.null, rfl, rfl⟩
          | numericFloat x =>
              cases x with
              | finite x => cases htrips
              | infinity negative => exact ⟨.null, rfl, rfl⟩
              | nan => exact ⟨.null, rfl, rfl⟩
          | time t => exact hreadable.elim
          | _ => cases htrips

theorem not_read_of_not_readable {lib : Primitives} {type : ColumnType} {cell : Cell}
    (hholds : type.HoldsCell cell) (hnot : ¬Readable type cell) {json : Json}
    (hdump : dumpCell cell = .ok json) (cell' : Cell) : coerce lib type json ≠ .ok cell' := by
  cases cell with
  | none => cases type <;> exact absurd trivial hnot
  | some value =>
      cases hholds value rfl with
      | time t =>
          obtain ⟨clock, offset⟩ := t
          cases offset with
          | some offset => cases hdump
          | none =>
              obtain rfl := Except.ok.inj hdump
              simp [coerce, coerceValue, length_isoformat_ne]
      | _ => exact absurd trivial hnot

/-- What `encode` wrote is what `decode` reads. -/
theorem CursorCodec.decode_encode {lib : Primitives} (codec : CursorCodec)
    {position tieBreaker : Cell} {p t : Json} (hp : dumpCell position = .ok p)
    (ht : dumpCell tieBreaker = .ok t)
    (hjson : lib.ReadsBack (legacyPayload p t)) :
    ∃ token, codec.encode lib position tieBreaker = .ok token ∧
      codec.decode lib token = .ok (p, t) := by
  refine ⟨codec.sign lib (legacyPayload p t), ?_, ?_⟩
  · rw [encode, hp, ht]
    rfl
  · rw [legacyPayload] at hjson ⊢
    rw [decode, verify_sign codec hjson]
    rfl

/-! ## The row comparison -/

section Boundary

variable {orderColumn idColumn : Column Env} {direction : SortDirection}

theorem transCmp_legacyOrder (column : Column Env) (direction : SortDirection) :
    TransCmp (legacyOrder column direction) := by
  have hcells : TransCmp (legacyCompareCells column direction) := by
    refine transCmp_placeNulls _ ?_
    cases direction with
    | asc => exact column.compare_trans
    | desc => exact transCmp_descending column.compare_trans
  exact { eq_swap := hcells.eq_swap, isLE_trans := hcells.isLE_trans }

theorem legacyOrder_lt {column : Column Env} {r x : Env} {a b : PyValue}
    (hr : column.eval r = some a) (hx : column.eval x = some b) :
    legacyOrder column direction r x = .lt ↔
      column.compare b a = (match direction with | .desc => .lt | .asc => .gt) := by
  have := column.compare_trans
  have hflip : column.compare a b = .lt ↔ column.compare b a = .gt := OrientedCmp.gt_iff_lt.symm
  rw [legacyOrder, hr, hx]
  cases direction with
  | asc => exact hflip
  | desc => exact Iff.rfl

theorem legacyOrder_eq {column : Column Env} {r x : Env} {a b : PyValue}
    (hr : column.eval r = some a) (hx : column.eval x = some b) :
    legacyOrder column direction r x = .eq ↔ column.compare b a = .eq := by
  have := column.compare_trans
  have hflip : column.compare a b = .eq ↔ column.compare b a = .eq := OrientedCmp.eq_comm
  rw [legacyOrder, hr, hx]
  cases direction with
  | asc => exact hflip
  | desc => exact Iff.rfl

/-- Nothing is after a NULL, and a NULL is after nothing. -/
theorem legacyBoundary_null {position tieBreaker : Cell} {x : Env}
    (hnull : position = none ∨ orderColumn.eval x = none) :
    legacyBoundary orderColumn idColumn direction position tieBreaker x ≠ .true := by
  have hunknown : compareRow orderColumn idColumn position tieBreaker x = none := by
    unfold compareRow
    rcases hnull with rfl | hx
    · cases orderColumn.eval x <;> rfl
    · rw [hx]
  rw [legacyBoundary, hunknown]
  exact nofun

/-- Without a value of the id column the rows with the value of the order column are not after the
row. -/
theorem legacyBoundary_untied {r x : Env} {a b : PyValue} (hr : orderColumn.eval r = some a)
    (hx : orderColumn.eval x = some b) :
    legacyBoundary orderColumn idColumn direction (some a) none x = .true ↔
      legacyOrder orderColumn direction r x = .lt := by
  rw [legacyOrder_lt hr hx]
  unfold legacyBoundary compareRow
  rw [hx]
  cases hcompare : orderColumn.compare b a with
  | eq => cases direction <;> cases idColumn.eval x <;> simp [hcompare]
  | lt => cases direction <;> simp [hcompare]
  | gt => cases direction <;> simp [hcompare]

/-- Without NULL the row comparison is the order. -/
theorem legacyBoundary_eq_true {r x : Env} {a b c d : PyValue} (hr : orderColumn.eval r = some a)
    (hx : orderColumn.eval x = some b) (hrid : idColumn.eval r = some c)
    (hxid : idColumn.eval x = some d) :
    legacyBoundary orderColumn idColumn direction (some a) (some c) x = .true ↔
      lex [legacyOrder orderColumn direction, legacyOrder idColumn direction] r x = .lt := by
  simp only [lex_cons, lex_nil, Ordering.then_eq_lt, reduceCtorEq, and_false, or_false,
    legacyOrder_lt hr hx, legacyOrder_eq hr hx, legacyOrder_lt hrid hxid]
  unfold legacyBoundary compareRow
  rw [hx]
  cases hcompare : orderColumn.compare b a with
  | eq =>
      simp only [hcompare, hxid]
      cases direction <;> simp
  | lt => cases direction <;> simp [hcompare]
  | gt => cases direction <;> simp [hcompare]

end Boundary

/-! ## Listings -/

/-- What stays the same while a listing is read with an order column and an id column. -/
structure LegacyListing (Db Env Row Id : Type) where
  lib : Primitives
  orm : Orm Row Id
  codec : CursorCodec
  orderColumn : Column Env
  idColumn : Column Env
  direction : SortDirection
  statement : Select Db Env Row

namespace LegacyListing

variable (listing : LegacyListing Db Env Row Id)

/-- The pages of the listing. -/
def fetch [DecidableEq Id] (db : Db) (limit : Int) : Fetch Row := fun cursor =>
  paginateLegacySync listing.lib listing.orm listing.codec listing.orderColumn listing.idColumn
    listing.direction listing.statement db cursor limit

/-- The order of the query. -/
def order : Env → Env → Ordering :=
  lex [legacyOrder listing.orderColumn listing.direction,
    legacyOrder listing.idColumn listing.direction]

/-- The rows of the statement in the order the query emits them. -/
def rows (db : Db) : List Env := sortBy listing.order (listing.statement.kept db)

/-- The paginator accepts the column: it is mapped to an attribute that has its value. -/
def IsAttribute (column : Column Env) (db : Db) : Prop :=
  ∃ key, column.key = some key ∧ key ≠ "" ∧ ∀ env ∈ listing.statement.kept db,
    listing.orm.getattr (listing.statement.entity env) key = .ok (column.eval env)

/-- The statement has no order and window of its own, the id column is not null, both columns are
attributes and hold values of their types, and `orjson` reads what it writes. -/
structure Mapped (db : Db) : Prop where
  orderBy : listing.statement.orderBy = []
  offset : listing.statement.offset = none
  limit : listing.statement.limit = none
  orderAttribute : listing.IsAttribute listing.orderColumn db
  idAttribute : listing.IsAttribute listing.idColumn db
  orderHolds : ∀ env ∈ listing.statement.kept db,
    listing.orderColumn.type.HoldsCell (listing.orderColumn.eval env)
  idHolds : ∀ env ∈ listing.statement.kept db,
    listing.idColumn.type.HoldsCell (listing.idColumn.eval env)
  idNotNull : ∀ env ∈ listing.statement.kept db, listing.idColumn.eval env ≠ none
  readsBack : ∀ env ∈ listing.statement.kept db, ∀ p t,
    dumpCell (listing.orderColumn.eval env) = .ok p →
      dumpCell (listing.idColumn.eval env) = .ok t → listing.lib.ReadsBack (legacyPayload p t)

/-- A table the paginator accepts: the statement yields one row for each entity, and the id column
is unique. -/
structure Accepts (db : Db) : Prop extends listing.Mapped db where
  oneRow : (listing.statement.kept db).Pairwise fun a b =>
    listing.orm.identity (listing.statement.entity a) ≠
      listing.orm.identity (listing.statement.entity b)
  idUnique : (listing.statement.kept db).Pairwise fun a b => ∀ va vb,
    listing.idColumn.eval a = some va → listing.idColumn.eval b = some vb →
      listing.idColumn.compare va vb ≠ .eq

/-- The cursor after the row leads to the rows after it: no order value among them is NULL, the
order value of the row is read as it is, and so is its id unless no row has the same order value. -/
structure Passes (r : Env) (later : List Env) : Prop where
  notNull : ∀ x ∈ r :: later, listing.orderColumn.eval x ≠ none
  position : roundTrips listing.orderColumn.type (listing.orderColumn.eval r) = true
  tieBreaker : roundTrips listing.idColumn.type (listing.idColumn.eval r) = true ∨
    (Readable listing.idColumn.type (listing.idColumn.eval r) ∧
      ∀ x ∈ later, legacyOrder listing.orderColumn listing.direction r x ≠ .eq)

/-- Every row that ends a page passes, the last page apart. -/
def PagesPass (limit : Nat) (rows : List Env) : Prop :=
  SliceEnds limit listing.Passes rows

/-- Following the cursors from the start returns every row once, in order. -/
def Complete [DecidableEq Id] (db : Db) (limit : Int) : Prop :=
  ∃ pages, Follows (listing.fetch db limit) none pages ∧
    itemsOf pages = (listing.rows db).map listing.statement.entity

variable {listing} {db : Db}

theorem transCmp_order : TransCmp listing.order := by
  refine transCmp_lex fun cmp hcmp => ?_
  simp only [List.mem_cons, List.not_mem_nil, or_false] at hcmp
  rcases hcmp with rfl | rfl
  · exact transCmp_legacyOrder ..
  · exact transCmp_legacyOrder ..

theorem mem_rows {env : Env} : env ∈ listing.rows db ↔ env ∈ listing.statement.kept db := mem_sortBy

theorem mem_kept_of_rows {before : List Env} {r : Env} {later : List Env}
    (hrows : listing.rows db = before ++ r :: later) {x : Env} (hx : x ∈ r :: later) :
    x ∈ listing.statement.kept db := by
  rw [← mem_rows, hrows]
  exact List.mem_append_right _ hx

/-- Rows the order does not tell apart have the same id. -/
theorem id_eq_of_order_eq {a b : Env} (heq : listing.order a b = .eq) {va vb : PyValue}
    (hva : listing.idColumn.eval a = some va) (hvb : listing.idColumn.eval b = some vb) :
    listing.idColumn.compare va vb = .eq := by
  have := listing.idColumn.compare_trans
  have hid : legacyOrder listing.idColumn listing.direction a b = .eq :=
    lex_eq_iff.mp heq _ (List.mem_cons_of_mem _ (List.mem_singleton_self _))
  exact OrientedCmp.eq_symm ((legacyOrder_eq hva hvb).mp hid)

/-- The order tells the rows apart. -/
theorem Accepts.distinct (h : listing.Accepts db) :
    (listing.statement.kept db).Pairwise fun a b => listing.order a b ≠ .eq := by
  refine h.idUnique.imp_of_mem ?_
  intro a b ha hb hunique heq
  obtain ⟨va, hva⟩ := Option.ne_none_iff_exists'.mp (h.idNotNull a ha)
  obtain ⟨vb, hvb⟩ := Option.ne_none_iff_exists'.mp (h.idNotNull b hb)
  exact hunique va vb hva hvb (id_eq_of_order_eq heq hva hvb)

theorem Accepts.rows_sorted (h : listing.Accepts db) :
    (listing.rows db).Pairwise fun a b => listing.order a b = .lt :=
  sortBy_strict transCmp_order h.distinct

/-- The statement yields no other row of the entity. -/
theorem Accepts.eq_of_entity (h : listing.Accepts db) {a b : Env}
    (ha : a ∈ listing.statement.kept db) (hb : b ∈ listing.statement.kept db)
    (hsame : listing.statement.entity a = listing.statement.entity b) : a = b :=
  List.inj_on_of_nodup_map (List.pairwise_map.mpr h.oneRow) ha hb (congrArg _ hsame)

/-! ## The cursor after a row -/

/-- The query after a cursor. -/
abbrev after (listing : LegacyListing Db Env Row Id) (token : String) :
    Except PyError (Select Db Env Row) :=
  afterLegacyCursor listing.lib listing.codec listing.orderColumn listing.idColumn
    listing.direction listing.statement (some token)

/-- The cursor a page gets that ends with the row. -/
abbrev cursorAfter (listing : LegacyListing Db Env Row Id) (env : Env) : Except PyError String :=
  legacyCursorAfter listing.lib listing.orm listing.codec listing.orderColumn listing.idColumn
    (listing.statement.entity env)

/-- The statement, restricted by the row comparison with a position and a tie-breaker. -/
abbrev behind (listing : LegacyListing Db Env Row Id) (position tieBreaker : Cell) :
    Select Db Env Row :=
  listing.statement.where_
    (legacyBoundary listing.orderColumn listing.idColumn listing.direction position tieBreaker)

theorem mappedAttributeName_ok {column : Column Env} {key : String} (hkey : column.key = some key)
    (hne : key ≠ "") (argument : String) : mappedAttributeName column argument = .ok key := by
  unfold mappedAttributeName
  rw [hkey]
  exact if_neg hne

/-- The cursor after a row is the token of its two values. -/
theorem Mapped.cursorAfter_eq (h : listing.Mapped db) {r : Env}
    (hr : r ∈ listing.statement.kept db) :
    listing.cursorAfter r =
      listing.codec.encode listing.lib (listing.orderColumn.eval r) (listing.idColumn.eval r) := by
  obtain ⟨orderKey, horderKey, horderNe, horder⟩ := h.orderAttribute
  obtain ⟨idKey, hidKey, hidNe, hid⟩ := h.idAttribute
  rw [cursorAfter, legacyCursorAfter, mappedAttributeName_ok horderKey horderNe,
    mappedAttributeName_ok hidKey hidNe, ok_bind, ok_bind, horder r hr, hid r hr, ok_bind, ok_bind]

/-- When something is read of both values, the next query is the row comparison with it. -/
theorem Mapped.cursorAfter_readable (h : listing.Mapped db) {r : Env}
    (hr : r ∈ listing.statement.kept db)
    (horder : Readable listing.orderColumn.type (listing.orderColumn.eval r))
    (hid : Readable listing.idColumn.type (listing.idColumn.eval r)) :
    ∃ token, listing.cursorAfter r = .ok token ∧ listing.after token =
      .ok (listing.behind (readCell listing.orderColumn.type (listing.orderColumn.eval r))
        (readCell listing.idColumn.type (listing.idColumn.eval r))) := by
  obtain ⟨p, hp, hposition⟩ := read_of_readable listing.lib (h.orderHolds r hr) horder
  obtain ⟨t, ht, htie⟩ := read_of_readable listing.lib (h.idHolds r hr) hid
  obtain ⟨token, hencode, hdecode⟩ :=
    listing.codec.decode_encode hp ht (h.readsBack r hr p t hp ht)
  refine ⟨token, (h.cursorAfter_eq hr).trans hencode, ?_⟩
  rw [after, afterLegacyCursor, hdecode, ok_bind]
  dsimp only
  rw [hposition, ok_bind, htie, ok_bind]
  rfl

/-- When nothing is read of one value, there is no next query. -/
theorem Mapped.cursorAfter_unreadable (h : listing.Mapped db) {r : Env}
    (hr : r ∈ listing.statement.kept db)
    (hnot : ¬(Readable listing.orderColumn.type (listing.orderColumn.eval r) ∧
      Readable listing.idColumn.type (listing.idColumn.eval r))) {token : String}
    (htoken : listing.cursorAfter r = .ok token) (query : Select Db Env Row) :
    listing.after token ≠ .ok query := by
  rw [h.cursorAfter_eq hr] at htoken
  obtain ⟨p, hp, hdumped⟩ := bind_eq_ok.mp htoken
  obtain ⟨t, ht, hdumped⟩ := bind_eq_ok.mp hdumped
  obtain ⟨token', hencode, hdecode⟩ :=
    listing.codec.decode_encode hp ht (h.readsBack r hr p t hp ht)
  obtain rfl := Except.ok.inj (htoken.symm.trans hencode)
  intro hquery
  rw [after, afterLegacyCursor, hdecode, ok_bind] at hquery
  obtain ⟨position, hposition, hquery⟩ := bind_eq_ok.mp hquery
  obtain ⟨tieBreaker, htie, -⟩ := bind_eq_ok.mp hquery
  refine hnot ⟨?_, ?_⟩
  · by_contra hunreadable
    exact not_read_of_not_readable (h.orderHolds r hr) hunreadable hp _ hposition
  · by_contra hunreadable
    exact not_read_of_not_readable (h.idHolds r hr) hunreadable ht _ htie

/-! ## A page -/

/-- The query after the cursor finds these rows. -/
def Finds (listing : LegacyListing Db Env Row Id) (db : Db) (cursor : Option String)
    (found : List Env) : Prop :=
  ∃ query, afterLegacyCursor listing.lib listing.codec listing.orderColumn listing.idColumn
      listing.direction listing.statement cursor = .ok query ∧
    query.orderBy = [] ∧ query.offset = none ∧ query.entity = listing.statement.entity ∧
      sortBy listing.order (query.kept db) = found

theorem Mapped.finds_rows (h : listing.Mapped db) : listing.Finds db none (listing.rows db) :=
  ⟨listing.statement, rfl, h.orderBy, h.offset, rfl, rfl⟩

/-- The query of a page finds the first rows, one more than the page holds. -/
theorem Finds.execute {cursor : Option String} {found : List Env}
    (h : listing.Finds db cursor found) {limit : Nat} (hlimit : 1 ≤ limit ∧ limit ≤ 500) :
    ∃ query, prepareLegacyQuery listing.lib listing.codec listing.orderColumn listing.idColumn
        listing.direction listing.statement cursor limit = .ok query ∧
      query.execute db = (found.take (limit + 1)).map listing.statement.entity := by
  obtain ⟨query, hquery, horder, hoffset, hentity, rfl⟩ := h
  have hrange : (1 : Int) ≤ (limit : Int) ∧ (limit : Int) ≤ 500 := by omega
  refine ⟨(query.addOrder [legacyOrder listing.orderColumn listing.direction,
    legacyOrder listing.idColumn listing.direction]).withLimit (limit + 1), ?_, ?_⟩
  · rw [prepareLegacyQuery, validateLimit_ok hrange, ok_bind, hquery, ok_bind]
    rfl
  · simp only [Select.execute, Select.window, Select.withLimit, Select.addOrder, hoffset,
      Option.getD_none, List.drop_zero, hentity, Select.ordered, horder, List.nil_append]
    rfl

/-- The rows after a row are those that come after it in the order. -/
theorem Accepts.mem_later (h : listing.Accepts db) {before : List Env} {r : Env}
    {later : List Env} (hrows : listing.rows db = before ++ r :: later) {x : Env}
    (hx : x ∈ listing.statement.kept db) : x ∈ later ↔ listing.order r x = .lt := by
  have hcmp := listing.transCmp_order
  have hsorted := h.rows_sorted
  rw [hrows, List.pairwise_append, List.pairwise_cons] at hsorted
  obtain ⟨-, ⟨hafter, -⟩, hbefore⟩ := hsorted
  refine ⟨hafter x, fun hlt => ?_⟩
  rw [← mem_rows, hrows, List.mem_append, List.mem_cons] at hx
  rcases hx with hin | rfl | hin
  · rw [OrientedCmp.gt_of_lt (hbefore x hin r List.mem_cons_self)] at hlt
    cases hlt
  · have hself : listing.order x x = .eq := Std.ReflCmp.compare_self
    rw [hself] at hlt
    cases hlt
  · exact hin

/-- Sorting the rows that come after a row yields the rows after it. -/
theorem Accepts.sorted_later (h : listing.Accepts db) {before : List Env} {r : Env}
    {later : List Env} (hrows : listing.rows db = before ++ r :: later) :
    sortBy listing.order ((listing.statement.kept db).filter
      fun x => decide (listing.order r x = .lt)) = later := by
  have hcmp := listing.transCmp_order
  have hsorted := h.rows_sorted
  rw [hrows, List.pairwise_append, List.pairwise_cons] at hsorted
  obtain ⟨-, ⟨hafter, -⟩, hbefore⟩ := hsorted
  have hself : listing.order r r = .eq := Std.ReflCmp.compare_self
  have hfront : ∀ x ∈ before, listing.order r x = .gt := fun x hx =>
    OrientedCmp.gt_of_lt (hbefore x hx r List.mem_cons_self)
  rw [sortBy_filter hcmp h.distinct]
  have hrows' : sortBy listing.order (listing.statement.kept db) = before ++ r :: later := hrows
  rw [hrows', List.filter_append, List.filter_cons_of_neg (by simp [hself]),
    List.filter_eq_nil_iff.mpr (fun x hx => by simp [hfront x hx]), List.nil_append]
  exact List.filter_eq_self.mpr fun x hx => decide_eq_true (hafter x hx)

/-- After a row that passes the row comparison is the order. -/
theorem Accepts.boundary_of_passes (h : listing.Accepts db) {before : List Env} {r : Env}
    {later : List Env} (hrows : listing.rows db = before ++ r :: later)
    (hpasses : listing.Passes r later) {x : Env} (hx : x ∈ listing.statement.kept db) :
    legacyBoundary listing.orderColumn listing.idColumn listing.direction
        (listing.orderColumn.eval r) (readCell listing.idColumn.type (listing.idColumn.eval r)) x =
          .true ↔ listing.order r x = .lt := by
  have hr : r ∈ listing.statement.kept db := mem_kept_of_rows hrows List.mem_cons_self
  obtain ⟨a, ha⟩ := Option.ne_none_iff_exists'.mp (hpasses.notNull r List.mem_cons_self)
  obtain ⟨c, hc⟩ := Option.ne_none_iff_exists'.mp (h.idNotNull r hr)
  obtain ⟨d, hd⟩ := Option.ne_none_iff_exists'.mp (h.idNotNull x hx)
  rw [ha]
  cases hcell : listing.orderColumn.eval x with
  | none =>
      -- A NULL is not after the row in the order either.
      refine ⟨fun htrue => absurd htrue (legacyBoundary_null (.inr hcell)), fun hlt => ?_⟩
      exact absurd hcell
        (hpasses.notNull x (List.mem_cons_of_mem _ ((h.mem_later hrows hx).mpr hlt)))
  | some b =>
      unfold readCell
      split
      · rw [hc]
        exact legacyBoundary_eq_true ha hcell hc hd
      · rename_i hlost
        obtain ⟨-, huntied⟩ := hpasses.tieBreaker.resolve_left hlost
        rw [legacyBoundary_untied ha hcell]
        refine ⟨fun hlt => by rw [order, lex_cons, hlt]; rfl, fun hlt => ?_⟩
        have hlater := (h.mem_later hrows hx).mpr hlt
        rw [order, lex_cons, Ordering.then_eq_lt] at hlt
        exact hlt.resolve_right fun htied => huntied x hlater htied.1

/-- After a row that passes the query finds the rows after it. -/
theorem Accepts.finds_after (h : listing.Accepts db) {before : List Env} {r : Env}
    {later : List Env} (hrows : listing.rows db = before ++ r :: later)
    (hpasses : listing.Passes r later) :
    ∃ token, listing.cursorAfter r = .ok token ∧ listing.Finds db (some token) later := by
  have hr : r ∈ listing.statement.kept db := mem_kept_of_rows hrows List.mem_cons_self
  have hreadable : Readable listing.idColumn.type (listing.idColumn.eval r) := by
    rcases hpasses.tieBreaker with htrips | ⟨hreadable, -⟩
    · exact readable_of_roundTrips htrips
    · exact hreadable
  obtain ⟨token, htoken, hquery⟩ :=
    h.cursorAfter_readable hr (readable_of_roundTrips hpasses.position) hreadable
  have hposition : readCell listing.orderColumn.type (listing.orderColumn.eval r) =
      listing.orderColumn.eval r := if_pos hpasses.position
  rw [hposition] at hquery
  refine ⟨token, htoken, _, hquery, h.orderBy, h.offset, rfl, ?_⟩
  rw [behind, Select.kept_where, ← h.sorted_later hrows]
  refine congrArg _ (List.filter_congr fun x hx => ?_)
  rw [Bool.eq_iff_iff, beq_iff_eq, decide_eq_true_iff]
  exact h.boundary_of_passes hrows hpasses hx

variable [DecidableEq Id] {limit : Nat}

/-- The page of a query that finds rows of the statement. -/
theorem Accepts.fetch_found (h : listing.Accepts db) (hlimit : 1 ≤ limit ∧ limit ≤ 500)
    {cursor : Option String} {found : List Env} (hfinds : listing.Finds db cursor found)
    (hsuffix : found.Sublist (listing.rows db)) :
    listing.fetch db limit cursor = buildLegacyPage listing.lib listing.orm listing.codec
      listing.orderColumn listing.idColumn limit
        ((found.take (limit + 1)).map listing.statement.entity) := by
  obtain ⟨query, hquery, hexecute⟩ := hfinds.execute hlimit
  have hdistinct : (found.take (limit + 1)).Pairwise fun a b =>
      listing.orm.identity (listing.statement.entity a) ≠
        listing.orm.identity (listing.statement.entity b) :=
    (((sortBy_perm _ _).pairwise_iff fun h => h.symm).mpr h.oneRow).sublist
      ((List.take_sublist _ _).trans hsuffix)
  rw [fetch, paginateLegacySync, hquery, ok_bind, hexecute]
  rw [uniqueScalars_eq_self (List.pairwise_map.mpr hdistinct)]

/-- The last page holds all rows that are left. -/
theorem Accepts.fetch_last (h : listing.Accepts db) (hlimit : 1 ≤ limit ∧ limit ≤ 500)
    {cursor : Option String} {found : List Env} (hfinds : listing.Finds db cursor found)
    (hsuffix : found.Sublist (listing.rows db)) (hshort : found.length ≤ limit) :
    listing.fetch db limit cursor =
      .ok ⟨found.map listing.statement.entity, none, false⟩ := by
  have hmore : ¬limit < (found.map listing.statement.entity).length := by
    rw [List.length_map]
    omega
  rw [h.fetch_found hlimit hfinds hsuffix, List.take_of_length_le (by omega), buildLegacyPage,
    buildPage, Int.toNat_natCast, decide_eq_false hmore, List.take_of_length_le (by omega)]

/-- Any other page ends with a row and has the cursor after it. -/
theorem Accepts.fetch_more (h : listing.Accepts db) (hlimit : 1 ≤ limit ∧ limit ≤ 500)
    {cursor : Option String} {front : List Env} {r : Env} {later : List Env}
    (hfinds : listing.Finds db cursor (front ++ r :: later))
    (hsuffix : (front ++ r :: later).Sublist (listing.rows db))
    (hfront : front.length + 1 = limit) (hlater : later ≠ []) :
    listing.fetch db limit cursor = (listing.cursorAfter r).map fun token =>
      ⟨(front ++ [r]).map listing.statement.entity, some token, true⟩ := by
  have hsplit : front ++ r :: later = (front ++ [r]) ++ later := by simp
  have hpage : (front ++ [r]).length = limit := by simpa using hfront
  have htake : ((front ++ r :: later).take (limit + 1)).take limit = front ++ [r] := by
    rw [List.take_take, Nat.min_eq_left (Nat.le_succ _), hsplit, List.take_left' hpage]
  have hmore : limit < (((front ++ r :: later).take (limit + 1)).map
      listing.statement.entity).length := by
    have := List.length_pos_iff.mpr hlater
    simp only [List.length_map, List.length_take, List.length_append, List.length_cons]
    omega
  have hlast : ((front ++ [r]).map listing.statement.entity).getLast? =
      some (listing.statement.entity r) := by
    rw [List.map_append]
    exact List.getLast?_concat
  rw [h.fetch_found hlimit hfinds hsuffix, buildLegacyPage, buildPage, Int.toNat_natCast,
    decide_eq_true hmore, ← List.map_take, htake, hlast]
  cases legacyCursorAfter listing.lib listing.orm listing.codec listing.orderColumn
    listing.idColumn (listing.statement.entity r) <;> rfl

/-- The rows of a page after a cursor are those that the row comparison of the cursor keeps. -/
theorem fetch_items (hlimit : 1 ≤ limit) {token : String} {page : CursorPage Row}
    (hpage : listing.fetch db limit (some token) = .ok page) :
    ∃ position tieBreaker, listing.after token = .ok (listing.behind position tieBreaker) ∧
      (∀ row ∈ page.items, ∃ env ∈ listing.statement.kept db,
        (listing.behind position tieBreaker).satisfies env = true ∧
          listing.statement.entity env = row) ∧
      (page.items = [] → page.hasMore = false) := by
  obtain ⟨query, hquery, hpage⟩ := bind_eq_ok.mp hpage
  obtain ⟨-, -, hquery⟩ := bind_eq_ok.mp hquery
  obtain ⟨bounded, hafter, hquery⟩ := bind_eq_ok.mp hquery
  obtain rfl := Except.ok.inj hquery
  obtain ⟨⟨p, t⟩, -, hbounded⟩ := bind_eq_ok.mp hafter
  obtain ⟨position, -, hbounded⟩ := bind_eq_ok.mp hbounded
  obtain ⟨tieBreaker, -, hbounded⟩ := bind_eq_ok.mp hbounded
  obtain rfl := Except.ok.inj hbounded
  obtain ⟨hitems, hmore, -⟩ := buildPage_ok hpage
  rw [Int.toNat_natCast] at hitems hmore
  refine ⟨position, tieBreaker, hafter, ?_, ?_⟩
  · intro row hrow
    rw [hitems] at hrow
    obtain ⟨env, hsource, hsatisfies, rfl⟩ :=
      Select.mem_execute (mem_of_mem_uniqueScalars (List.mem_of_mem_take hrow))
    have hstatement := (Select.satisfies_where.mp hsatisfies).1
    exact ⟨env, Select.mem_kept.mpr ⟨hsource, hstatement⟩, hsatisfies, rfl⟩
  · intro hnone
    rw [hmore]
    rw [hitems, List.take_eq_nil_iff] at hnone
    rcases hnone with hzero | hrows
    · omega
    · rw [hrows]
      rfl

/-- No row with a NULL is on a page after a cursor. -/
theorem follows_notNull (hlimit : 1 ≤ limit) {token : String} {pages : List (CursorPage Row)}
    (hfollows : Follows (listing.fetch db limit) (some token) pages) :
    ∀ row ∈ itemsOf pages, ∃ env ∈ listing.statement.kept db,
      listing.orderColumn.eval env ≠ none ∧ listing.statement.entity env = row := by
  have hpage : ∀ token page, listing.fetch db limit (some token) = .ok page → ∀ row ∈ page.items,
      ∃ env ∈ listing.statement.kept db,
        listing.orderColumn.eval env ≠ none ∧ listing.statement.entity env = row := by
    intro token page hpage row hrow
    obtain ⟨position, tieBreaker, -, hrows, -⟩ := fetch_items hlimit hpage
    obtain ⟨env, henv, hsatisfies, hentity⟩ := hrows row hrow
    refine ⟨env, henv, fun hnull => ?_, hentity⟩
    exact legacyBoundary_null (.inr hnull) (Select.satisfies_where.mp hsatisfies).2
  exact hfollows.forall_items (hpage token) hpage

/-- A row on the page after a cursor passes the row comparison with what is read of the row the
cursor was made of. -/
theorem Accepts.boundary_of_page (h : listing.Accepts db) (hlimit : 1 ≤ limit) {r x : Env}
    (hr : r ∈ listing.statement.kept db) (hx : x ∈ listing.statement.kept db) {token : String}
    (htoken : listing.cursorAfter r = .ok token) {page : CursorPage Row}
    (hpage : listing.fetch db limit (some token) = .ok page)
    (hmem : listing.statement.entity x ∈ page.items) :
    Readable listing.idColumn.type (listing.idColumn.eval r) ∧
      legacyBoundary listing.orderColumn listing.idColumn listing.direction
        (readCell listing.orderColumn.type (listing.orderColumn.eval r))
        (readCell listing.idColumn.type (listing.idColumn.eval r)) x = .true := by
  obtain ⟨position, tieBreaker, hquery, hrows, -⟩ := fetch_items hlimit hpage
  obtain ⟨x', hx', hsatisfies, hentity⟩ := hrows _ hmem
  obtain rfl := h.eq_of_entity hx' hx hentity
  have hreadable : Readable listing.orderColumn.type (listing.orderColumn.eval r) ∧
      Readable listing.idColumn.type (listing.idColumn.eval r) := by
    by_contra hnot
    exact h.cursorAfter_unreadable hr hnot htoken _ hquery
  obtain ⟨token', htoken', hquery'⟩ := h.cursorAfter_readable hr hreadable.1 hreadable.2
  obtain rfl := Except.ok.inj (htoken.symm.trans htoken')
  rw [← Except.ok.inj (hquery'.symm.trans hquery)] at hsatisfies
  exact ⟨hreadable.2, (Select.satisfies_where.mp hsatisfies).2⟩

omit [DecidableEq Id] in
/-- When the next row has another order value, every later row does. -/
theorem Accepts.untied_later (h : listing.Accepts db) {before : List Env} {r x : Env}
    {rest : List Env} (hrows : listing.rows db = before ++ r :: x :: rest)
    (hlt : legacyOrder listing.orderColumn listing.direction r x = .lt) :
    ∀ y ∈ x :: rest, legacyOrder listing.orderColumn listing.direction r y ≠ .eq := by
  have hcmp := transCmp_legacyOrder listing.orderColumn listing.direction
  have hsorted := h.rows_sorted
  rw [hrows, List.pairwise_append, List.pairwise_cons, List.pairwise_cons] at hsorted
  intro y hy htied
  rcases List.mem_cons.mp hy with rfl | hy
  · rw [hlt] at htied
    cases htied
  · have hle : (legacyOrder listing.orderColumn listing.direction x y).isLE := by
      have hxy := hsorted.2.1.2.1 y hy
      rw [order, lex_cons, Ordering.then_eq_lt] at hxy
      rcases hxy with hxy | hxy
      · rw [hxy]
        rfl
      · rw [hxy.1]
        rfl
    rw [TransCmp.lt_of_lt_of_isLE hlt hle] at htied
    cases htied

/-- If following the cursor after a row returns the rows after it, the row passes. -/
theorem Accepts.passes_of_follows (h : listing.Accepts db) (hlimit : 1 ≤ limit)
    {before : List Env} {r : Env} {later : List Env}
    (hrows : listing.rows db = before ++ r :: later) (hlater : later ≠ []) {token : String}
    (htoken : listing.cursorAfter r = .ok token) {pages : List (CursorPage Row)}
    (hfollows : Follows (listing.fetch db limit) (some token) pages)
    (hitems : itemsOf pages = later.map listing.statement.entity) : listing.Passes r later := by
  have hkept : ∀ y ∈ r :: later, y ∈ listing.statement.kept db := fun y => mem_kept_of_rows hrows
  obtain ⟨x, rest, rfl⟩ := List.exists_cons_of_ne_nil hlater
  -- The first row after `r` is on the next page.
  obtain ⟨page, hpage, hx⟩ := hfollows.head_mem hitems fun page hpage hempty => by
    obtain ⟨-, -, -, -, hmore⟩ := fetch_items hlimit hpage
    exact hmore hempty
  obtain ⟨hreadable, hboundary⟩ := h.boundary_of_page hlimit (hkept r List.mem_cons_self)
    (hkept x (List.mem_cons_of_mem _ List.mem_cons_self)) htoken hpage hx
  have hposition : readCell listing.orderColumn.type (listing.orderColumn.eval r) ≠ none :=
    fun hnull => legacyBoundary_null (.inl hnull) hboundary
  have htrips : roundTrips listing.orderColumn.type (listing.orderColumn.eval r) = true := by
    by_contra hnot
    exact hposition (if_neg hnot)
  rw [readCell, if_pos htrips] at hposition hboundary
  have hnotNull : ∀ y ∈ x :: rest, listing.orderColumn.eval y ≠ none := by
    intro y hy
    obtain ⟨y', hy', hnotNull, hsame⟩ :=
      follows_notNull hlimit hfollows _ (hitems ▸ List.mem_map_of_mem hy)
    rwa [← h.eq_of_entity hy' (hkept y (List.mem_cons_of_mem _ hy)) hsame]
  refine ⟨?_, htrips, ?_⟩
  · intro y hy
    rcases List.mem_cons.mp hy with rfl | hy
    · exact hposition
    · exact hnotNull y hy
  · refine or_iff_not_imp_left.mpr fun hlost => ⟨hreadable, ?_⟩
    obtain ⟨a, ha⟩ := Option.ne_none_iff_exists'.mp hposition
    obtain ⟨b, hb⟩ := Option.ne_none_iff_exists'.mp (hnotNull x List.mem_cons_self)
    rw [readCell, if_neg hlost, ha] at hboundary
    exact h.untied_later hrows ((legacyBoundary_untied ha hb).mp hboundary)

/-! ## A walk -/

/-- Following the cursor of a query that finds rows of the statement. -/
theorem Accepts.follows_iff (h : listing.Accepts db) (hlimit : 1 ≤ limit ∧ limit ≤ 500)
    {before found : List Env} {cursor : Option String} (hrows : listing.rows db = before ++ found)
    (hfinds : listing.Finds db cursor found) :
    (∃ pages, Follows (listing.fetch db limit) cursor pages ∧
      itemsOf pages = found.map listing.statement.entity) ↔ listing.PagesPass limit found := by
  induction hlength : found.length using Nat.strong_induction_on generalizing before found cursor
    with
  | h count ih =>
      have hsuffix : found.Sublist (listing.rows db) := hrows ▸ List.sublist_append_right _ _
      rcases Nat.lt_or_ge limit found.length with hlong | hshort
      · obtain ⟨front, r, later, rfl, hfront, hlater⟩ := exists_slice hlimit.1 hlong
        have hmap : (front ++ r :: later).map listing.statement.entity =
            (front ++ [r]).map listing.statement.entity ++ later.map listing.statement.entity := by
          rw [List.append_cons, List.map_append]
        have hrows' : listing.rows db = (before ++ front) ++ r :: later := by
          rw [hrows, List.append_assoc]
        have hpage := h.fetch_more hlimit hfinds hsuffix hfront hlater
        have hshorter : later.length < count := by
          rw [← hlength, List.length_append, List.length_cons]
          omega
        have hsplit : listing.rows db = (before ++ front ++ [r]) ++ later := by
          rw [hrows', List.append_assoc (before ++ front)]
          rfl
        rw [PagesPass, sliceEnds_append hfront hlater]
        constructor
        · rintro ⟨pages, hfollows, hitems⟩
          cases hcursor : listing.cursorAfter r with
          | error e =>
              rw [hcursor] at hpage
              cases hfollows with
              | last hfetch _ => cases hpage.symm.trans hfetch
              | next hfetch _ _ _ => cases hpage.symm.trans hfetch
          | ok token =>
              rw [hcursor] at hpage
              obtain ⟨token', rest, hnext, hrest, rfl⟩ := hfollows.of_more hpage rfl
              obtain rfl := Option.some.inj hnext
              have hitems' : itemsOf rest = later.map listing.statement.entity := by
                rw [hmap] at hitems
                exact List.append_cancel_left hitems
              have hpasses := h.passes_of_follows hlimit.1 hrows' hlater hcursor hrest hitems'
              obtain ⟨token', hcursor', hfinds'⟩ := h.finds_after hrows' hpasses
              obtain rfl := Except.ok.inj (hcursor.symm.trans hcursor')
              exact ⟨hpasses, (ih _ hshorter hsplit hfinds' rfl).mp ⟨rest, hrest, hitems'⟩⟩
        · rintro ⟨hpasses, hrest⟩
          obtain ⟨token, hcursor, hfinds'⟩ := h.finds_after hrows' hpasses
          obtain ⟨pages, hfollows, hitems⟩ := (ih _ hshorter hsplit hfinds' rfl).mpr hrest
          rw [hcursor] at hpage
          refine ⟨_ :: pages, .next hpage rfl rfl hfollows, ?_⟩
          rw [itemsOf_cons, hitems, hmap]
      · have hpage := h.fetch_last hlimit hfinds hsuffix hshort
        exact ⟨fun _ => sliceEnds_of_length_le hshort,
          fun _ => ⟨[_], .last hpage rfl, List.append_nil _⟩⟩

/-- Following the cursors returns every row once and in order exactly when every row that ends a
page passes. -/
theorem legacy_walk_iff (h : listing.Accepts db) (hlimit : 1 ≤ limit ∧ limit ≤ 500) :
    listing.Complete db limit ↔ listing.PagesPass limit (listing.rows db) :=
  h.follows_iff hlimit (List.nil_append _).symm h.finds_rows

end LegacyListing

/-! ## Scores -/

/-- The payload of the cursor after the row 1 without a score. -/
def nullText : KnownText where
  value := legacyPayload .null (.int 1)
  text := "\x7b\"p\":null,\"t\":1,\"v\":1\x7d"
  digest := 0x7b8b0345a57362e7c300c58b237e8dc2ca61193ba7ccb1330ba35f5660e4b114

/-- The payload of the cursor after the row 1 with the score 7. -/
def sevenText : KnownText where
  value := legacyPayload (.int 7) (.int 1)
  text := "\x7b\"p\":7,\"t\":1,\"v\":1\x7d"
  digest := 0x3d5c6b9b86785c1eb735db1df2ca34a0f2ca7667e3be5bd649da81269aab98a0

/-- The payload of the cursor after the row 2 with the score 5. -/
def fiveText : KnownText where
  value := legacyPayload (.int 5) (.int 2)
  text := "\x7b\"p\":5,\"t\":2,\"v\":1\x7d"
  digest := 0xe38dacbc9c0c398ac5d8e208a4acbbf6a9dcab7ab0707398103a8a134d47457f

/-- A row with a nullable score and an id. -/
abbrev ScoreRow := Option Int × Int

/-- A column of integers. -/
def scoreColumn (key : String) (nullable : Bool) (eval : ScoreRow → Cell) : Column ScoreRow where
  key := some key
  type := .bigInteger
  nullable := nullable
  eval := eval
  compare := intColumn.compare
  compare_trans := intColumn.compare_trans

/-- Rows by score, the highest first. -/
def scores : LegacyListing (List ScoreRow) ScoreRow ScoreRow Int where
  lib := .onTexts [nullText, sevenText, fiveText] fun value =>
    match value.field "p" with
    | some (.int 7) => sevenText
    | some (.int _) => fiveText
    | _ => nullText
  orm :=
    { getattr := fun row key =>
        .ok (if key = "score" then row.1.map .int else some (.int row.2))
      identity := Prod.snd }
  codec := sampleCodec
  orderColumn := scoreColumn "score" true fun row => row.1.map .int
  idColumn := scoreColumn "id" false fun row => some (.int row.2)
  direction := .desc
  statement := { source := id, entity := id }

theorem kept_scores (db : List ScoreRow) : scores.statement.kept db = db :=
  List.filter_eq_self.mpr fun _ _ => rfl

theorem accepts_scores {db : List ScoreRow} (hids : db.Pairwise fun a b => a.2 ≠ b.2)
    (hrows : ∀ row ∈ db, row = (none, 1) ∨ row = (some 7, 1) ∨ row = (some 5, 2)) :
    scores.Accepts db where
  orderBy := rfl
  offset := rfl
  limit := rfl
  oneRow := (kept_scores db).symm ▸ hids
  orderAttribute := ⟨"score", rfl, by decide, fun _ _ => rfl⟩
  idAttribute := ⟨"id", rfl, by decide, fun _ _ => rfl⟩
  orderHolds := by
    rw [kept_scores]
    intro row hrow value hvalue
    rcases hrows row hrow with rfl | rfl | rfl
    · cases hvalue
    · obtain rfl := Option.some.inj hvalue
      exact .bigInteger (by decide) (by decide)
    · obtain rfl := Option.some.inj hvalue
      exact .bigInteger (by decide) (by decide)
  idHolds := by
    rw [kept_scores]
    intro row hrow value hvalue
    obtain rfl := Option.some.inj hvalue
    rcases hrows row hrow with rfl | rfl | rfl
    · exact .bigInteger (by decide) (by decide)
    · exact .bigInteger (by decide) (by decide)
    · exact .bigInteger (by decide) (by decide)
  idNotNull := fun _ _ h => Option.some_ne_none _ h
  idUnique := by
    rw [kept_scores]
    refine hids.imp ?_
    intro a b hne va vb hva hvb heq
    obtain rfl := Option.some.inj hva
    obtain rfl := Option.some.inj hvb
    have hcompare : compare a.2 b.2 = .eq := heq
    exact hne (compare_eq_iff_eq.mp hcompare)
  readsBack := by
    rw [kept_scores]
    intro row hrow p t hp ht
    rcases hrows row hrow with rfl | rfl | rfl
    · obtain rfl := Except.ok.inj hp
      obtain rfl := Except.ok.inj ht
      rfl
    · obtain rfl := Except.ok.inj hp
      obtain rfl := Except.ok.inj ht
      rfl
    · obtain rfl := Except.ok.inj hp
      obtain rfl := Except.ok.inj ht
      rfl

theorem rows_scores {a b : ScoreRow} (h : scores.order a b = .lt) :
    scores.rows [a, b] = [a, b] := by
  rw [LegacyListing.rows, kept_scores]
  exact sortBy_eq LegacyListing.transCmp_order (List.Perm.refl _) (by simpa using h)

/-- A row without a score comes first, and nothing comes after its cursor. -/
theorem row_after_null_lost :
    scores.Accepts [(none, 1), (some 5, 2)] ∧ ¬scores.Complete [(none, 1), (some 5, 2)] 1 := by
  have haccepts : scores.Accepts [(none, 1), (some 5, 2)] :=
    accepts_scores (by decide) (by decide)
  have hrows : scores.rows [(none, 1), (some 5, 2)] = [(none, 1), (some 5, 2)] := rows_scores rfl
  refine ⟨haccepts, fun hcomplete => ?_⟩
  have hpass : scores.PagesPass 1 (scores.rows [(none, 1), (some 5, 2)]) :=
    (haccepts.follows_iff (by decide) (List.nil_append _).symm haccepts.finds_rows).mp hcomplete
  rw [hrows] at hpass
  have hpasses := hpass [] (none, 1) [(some 5, 2)] rfl nofun (Nat.one_dvd _)
  exact hpasses.notNull _ List.mem_cons_self rfl

theorem legacy_walk_iff_scores : scores.Complete [(some 7, 1), (some 5, 2)] 1 := by
  have hrows : scores.rows [(some 7, 1), (some 5, 2)] = [(some 7, 1), (some 5, 2)] :=
    rows_scores rfl
  refine (LegacyListing.legacy_walk_iff (accepts_scores (by decide) (by decide)) (by decide)).mpr ?_
  rw [hrows]
  intro front r later hsplit hlater _
  obtain ⟨rfl, rfl, rfl⟩ : front = [] ∧ r = (some 7, 1) ∧ later = [(some 5, 2)] := by
    rcases front with _ | ⟨x, _ | ⟨y, front⟩⟩
    · simp at hsplit
      simp [hsplit]
    · simp at hsplit
      exact absurd hsplit.2.2 hlater
    · simp at hsplit
  exact ⟨by decide, rfl, .inl rfl⟩

end ProdkitStorage.Database
