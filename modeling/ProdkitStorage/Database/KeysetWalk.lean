import Mathlib.Data.List.Nodup
import ProdkitStorage.Database.CursorBinding

/-!
# Walking a listing page by page

A client follows `next_cursor` with the same plan and query fingerprint while
other transactions change the table.  The state of such a walk is the database,
the session of the client, the cursor of the next fetch and all rows returned so
far.

`walk_refines` relates it to the keyset walk of the library, as long as no page
finds an older copy of one of its rows in the session (`FindsCurrent`): the table is
what the statement keeps, the cursor stands for the bound, and a page of
`paginate_sync` is a fetch.  The order of the plan tells any two rows apart because
its terms include the tie-breaker of the registry.

An older copy takes the cursor back to where its row was, and the rows from there on
are returned once more (`older_copy_repeats_rows`).
-/

namespace ProdkitStorage.Database

open ProdkitStorage.Foundation
open ProdkitStorage.Python
open Std (OrientedCmp TransCmp)

variable {Db Env Row Id : Type}

/-! ## The tie-breaker -/

theorem resolveTerms_mem {fields : List (String × SortField Env Row)} {seen : List String}
    {terms : List SortTerm} {resolved : List (ResolvedSortTerm Env Row)}
    (h : resolveTerms fields seen terms = .ok resolved) :
    ∀ term ∈ terms, ∃ r ∈ resolved, requireField fields term.field = .ok r.field := by
  induction terms generalizing seen resolved with
  | nil => intro term hterm; cases hterm
  | cons head terms ih =>
      unfold resolveTerms at h
      split at h
      · cases h
      · obtain ⟨field, hfield, h⟩ := bind_eq_ok.mp h
        obtain ⟨rest, hrest, h⟩ := bind_eq_ok.mp h
        obtain rfl := Except.ok.inj h
        intro term hterm
        rcases List.mem_cons.mp hterm with rfl | hterm
        · exact ⟨_, List.mem_cons_self, hfield⟩
        · obtain ⟨r, hr, hr'⟩ := ih hrest term hterm
          exact ⟨r, List.mem_cons_of_mem _ hr, hr'⟩

theorem SortRegistry.completeTerms_tie {registry : SortRegistry Env Row} {terms : List SortTerm}
    {complete : List (ResolvedSortTerm Env Row)} (h : registry.completeTerms terms = .ok complete) :
    ∃ term ∈ complete, term.field = registry.tieField := by
  obtain ⟨resolved, hresolved, h⟩ := bind_eq_ok.mp h
  split at h
  · rename_i hmem
    obtain rfl := Except.ok.inj h
    obtain ⟨term, hterm, hname⟩ := List.mem_map.mp hmem
    obtain ⟨r, hr, hfield⟩ := resolveTerms_mem hresolved term hterm
    rw [hname, registry.requireField_tie] at hfield
    exact ⟨r, hr, (Except.ok.inj hfield).symm⟩
  · obtain ⟨field, hfield, h⟩ := bind_eq_ok.mp h
    rw [registry.requireField_tie] at hfield
    obtain rfl := Except.ok.inj hfield
    obtain rfl := Except.ok.inj h
    exact ⟨_, List.mem_append_right _ (List.mem_singleton_self _), rfl⟩

/-- A plan that a registry resolves sorts by its tie-breaker. -/
theorem SortRegistry.resolve_tie {lib : Primitives} {registry : SortRegistry Env Row}
    {terms : List SortCriterion} {plan : SortPlan Env Row}
    (h : registry.resolve lib terms = .ok plan) :
    ∃ term ∈ plan.terms, term.field = registry.tieField := by
  obtain ⟨normalized, -, h⟩ := bind_eq_ok.mp h
  obtain ⟨complete, hcomplete, h⟩ := bind_eq_ok.mp h
  obtain rfl := Except.ok.inj h
  exact completeTerms_tie hcomplete

/-! ## Keys of rows -/

/-- The lexicographic order of the values of two rows. -/
def compareCells : List (ResolvedSortTerm Env Row) → List Cell → List Cell → Ordering
  | term :: terms, a :: as, b :: bs => (term.compareCells a b).then (compareCells terms as bs)
  | _, _, _ => .eq

/-- The values of two rows are in the order of the rows. -/
theorem compareCells_evals (plan : SortPlan Env Row) (a b : Env) :
    compareCells plan.terms (plan.evals a) (plan.evals b) = plan.order a b := by
  unfold SortPlan.evals SortPlan.order
  induction plan.terms with
  | nil => rfl
  | cons term terms ih => exact congrArg _ ih

/-! ## Listings -/

/-- What stays the same while a listing is read. -/
structure Listing (Db Env Row Id : Type) where
  lib : Primitives
  orm : Orm Row Id
  codec : CursorCodec
  sort : SortPlan Env Row
  queryFingerprint : Option String
  statement : Select Db Env Row

namespace Listing

variable (listing : Listing Db Env Row Id)

/-- A page of the listing. -/
def page [DecidableEq Id] (db : Db) (cursor : Option String) (limit : Int)
    (session : IdentityMap listing.orm := .empty) : Except PyError (CursorPage Row) :=
  paginateSync listing.lib listing.orm listing.codec listing.sort listing.queryFingerprint
    listing.statement db cursor limit session

/-- The query of a page. -/
def query (cursor : Option String) (limit : Int) : Except PyError (Select Db Env Row) :=
  prepareSortedQuery listing.lib listing.codec listing.sort listing.queryFingerprint
    listing.statement cursor limit

/-- The rows a page reads. -/
def rowsRead (db : Db) (cursor : Option String) (limit : Int) : List Row :=
  match listing.query cursor limit with
  | .ok query => query.execute db
  | .error _ => []

/-- The row `a` comes strictly before the row `b` in the order of the plan. -/
def Before (a b : Row) : Prop :=
  ∃ va vb, listing.sort.valuesFrom listing.orm.getattr a = .ok va ∧
    listing.sort.valuesFrom listing.orm.getattr b = .ok vb ∧
      compareCells listing.sort.terms va vb = .lt

/-- The token is the cursor after a row of the statement. -/
def IsCursor (token : String) (env : Env) : Prop :=
  cursorValues listing.lib listing.codec listing.sort listing.queryFingerprint token =
    .ok (listing.sort.evals env)

/-- The cursor after the row survives: its values are those of the sort expressions, and they are
written and read exactly. -/
def RoundTrips (env : Env) : Prop :=
  listing.sort.valuesFrom listing.orm.getattr (listing.statement.entity env) =
      .ok (listing.sort.evals env) ∧
    ∃ token, listing.codec.encodeState listing.lib
        ⟨listing.sort.fingerprint, listing.sort.evals env, listing.queryFingerprint⟩ = .ok token ∧
      listing.IsCursor token env

/-- A database a fetch may meet: the statement yields one row for each entity, the tie-breaker is
unique and not null on them, and their cursors survive. -/
structure Admissible (tie : SortField Env Row) (db : Db) : Prop where
  oneRow : (listing.statement.kept db).Pairwise fun a b =>
    listing.orm.identity (listing.statement.entity a) ≠
      listing.orm.identity (listing.statement.entity b)
  notNull : ∀ env ∈ listing.statement.kept db, tie.expression.eval env ≠ none
  unique : (listing.statement.kept db).Pairwise fun a b => ∀ va vb,
    tie.expression.eval a = some va → tie.expression.eval b = some vb →
      tie.expression.compare va vb ≠ .eq
  roundTrips : ∀ env ∈ listing.statement.kept db, listing.RoundTrips env

/-- The session holds no copy of the row with other values of the sort expressions. -/
def Current (session : IdentityMap listing.orm) (env : Env) : Prop :=
  ∀ held, session.held (listing.orm.identity (listing.statement.entity env)) = some held →
    listing.sort.valuesFrom listing.orm.getattr held = .ok (listing.sort.evals env)

/-- A walk of a client. -/
structure PageWalk (listing : Listing Db Env Row Id) where
  db : Db
  session : IdentityMap listing.orm
  cursor : Option String
  returned : List Row
  finished : Bool

/-- The walks of a listing: fetches that follow the cursor, and between them any change of the
database and of the session, which drops and refreshes objects and loads others. -/
def walk [DecidableEq Id] (tie : SortField Env Row) : System (PageWalk listing) WalkLabel where
  init s := s.cursor = none ∧ s.returned = [] ∧ s.finished = false ∧ listing.Admissible tie s.db
  step s label t :=
    match label with
    | .write => listing.Admissible tie t.db ∧ t = { s with db := t.db, session := t.session }
    | .fetch limit => s.finished = false ∧
        ∃ page, listing.page s.db s.cursor limit s.session = .ok page ∧
          t = ⟨s.db, s.session.load (listing.rowsRead s.db s.cursor limit), page.nextCursor,
            s.returned ++ page.items, !page.hasMore⟩

/-- A page is a step. -/
theorem walk_fetch [DecidableEq Id] {listing : Listing Db Env Row Id} {tie : SortField Env Row}
    {s : PageWalk listing} (hgoing : s.finished = false) {limit : Nat} {page : CursorPage Row}
    (hpage : listing.page s.db s.cursor limit s.session = .ok page) :
    (listing.walk tie).step s (.fetch limit)
      ⟨s.db, s.session.load (listing.rowsRead s.db s.cursor limit), page.nextCursor,
        s.returned ++ page.items, !page.hasMore⟩ :=
  ⟨hgoing, page, hpage, rfl⟩

/-- Between two pages. -/
theorem walk_write [DecidableEq Id] {listing : Listing Db Env Row Id} {tie : SortField Env Row}
    {s : PageWalk listing} {db : Db} (hdb : listing.Admissible tie db)
    (session : IdentityMap listing.orm) :
    (listing.walk tie).step s .write { s with db := db, session := session } :=
  ⟨hdb, rfl⟩

/-- The page finds no older copy of one of its rows in the session. -/
def FindsCurrent (s : PageWalk listing) : WalkLabel → Prop
  | .write => True
  | .fetch limit => ∀ query, listing.query s.cursor limit = .ok query →
      ∀ env ∈ (query.window (query.ordered s.db)).take limit, listing.Current s.session env

variable {listing} {tie : SortField Env Row}

/-- Rows the order of the plan does not tell apart have the same tie-breaker. -/
theorem tie_eq_of_order_eq (htie : ∃ term ∈ listing.sort.terms, term.field = tie) {a b : Env}
    (heq : listing.sort.order a b = .eq) {va vb : PyValue} (hva : tie.expression.eval a = some va)
    (hvb : tie.expression.eval b = some vb) : tie.expression.compare va vb = .eq := by
  obtain ⟨term, hterm, rfl⟩ := htie
  have := term.field.expression.compare_trans
  have hcompare : term.orderBy a b = .eq :=
    lex_eq_iff.mp heq _ (List.mem_map.mpr ⟨term, hterm, rfl⟩)
  rw [ResolvedSortTerm.orderBy, hva, hvb, ResolvedSortTerm.compareCells] at hcompare
  cases hdirection : term.direction with
  | asc =>
      rw [hdirection] at hcompare
      exact hcompare
  | desc =>
      rw [hdirection] at hcompare
      exact OrientedCmp.eq_symm hcompare

/-- The order of the plan tells the rows of the statement apart. -/
theorem Admissible.distinct {db : Db} (h : listing.Admissible tie db)
    (htie : ∃ term ∈ listing.sort.terms, term.field = tie) :
    Distinct listing.sort.order (listing.statement.kept db) := by
  refine h.unique.imp_of_mem ?_
  intro a b ha hb hunique heq
  obtain ⟨va, hva⟩ := Option.ne_none_iff_exists'.mp (h.notNull a ha)
  obtain ⟨vb, hvb⟩ := Option.ne_none_iff_exists'.mp (h.notNull b hb)
  exact hunique va vb hva hvb (tie_eq_of_order_eq htie heq hva hvb)

/-! ## A page is a fetch -/

/-- The cursor of a fetch stands for its bound. -/
def CursorFor (listing : Listing Db Env Row Id) : Option String → Option Env → Prop
  | none, none => True
  | some token, some env => listing.IsCursor token env
  | _, _ => False

/-- The statement has no order and no offset of its own. -/
def Plain (listing : Listing Db Env Row Id) : Prop :=
  listing.statement.orderBy = [] ∧ listing.statement.offset = none

/-- The order of the query of a page: that of the statement, and then that of the plan. -/
def pageOrder (listing : Listing Db Env Row Id) : Env → Env → Ordering :=
  lex (listing.statement.orderBy ++ listing.sort.terms.map ResolvedSortTerm.orderBy)

/-- The rows after the bound, in the order of the query. -/
def ahead (listing : Listing Db Env Row Id) (db : Db) (bound : Option Env) : List Env :=
  sortBy listing.pageOrder
    ((listing.statement.kept db).filter fun env => IsAfter listing.sort.order bound env)

theorem mem_ahead {db : Db} {bound : Option Env} {env : Env} :
    env ∈ listing.ahead db bound ↔
      env ∈ listing.statement.kept db ∧ IsAfter listing.sort.order bound env := by
  simp [ahead, mem_sortBy]

theorem ahead_of_plain (hplain : listing.Plain) (db : Db) (bound : Option Env) :
    listing.ahead db bound = found listing.sort.order (listing.statement.kept db) bound := by
  rw [ahead, pageOrder, hplain.1]
  rfl

/-- The rows a page shows the first of: the offset of the statement counts from the bound on. -/
def shown (listing : Listing Db Env Row Id) (db : Db) (bound : Option Env) : List Env :=
  (listing.ahead db bound).drop (listing.statement.offset.getD 0)

theorem mem_of_mem_shown {db : Db} {bound : Option Env} {env : Env}
    (h : env ∈ listing.shown db bound) :
    env ∈ listing.statement.kept db ∧ IsAfter listing.sort.order bound env :=
  mem_ahead.mp (List.mem_of_mem_drop h)

theorem shown_eq_ahead (hoffset : listing.statement.offset.getD 0 = 0) (db : Db)
    (bound : Option Env) : listing.shown db bound = listing.ahead db bound := by
  rw [shown, hoffset, List.drop_zero]

/-- There is a boundary at the bound. -/
def Ready (listing : Listing Db Env Row Id) (bound : Option Env) : Prop :=
  ∀ env, bound = some env → listing.sort.Comparable env

theorem ready_none : listing.Ready none := nofun

/-- The query of a page finds the first of these rows, one more than the page holds. -/
theorem query_shown {cursor : Option String} {bound : Option Env}
    (hcursor : listing.CursorFor cursor bound) (hready : listing.Ready bound) {limit : Int}
    (hlimit : 1 ≤ limit ∧ limit ≤ 500) :
    ∃ query, listing.query cursor limit = .ok query ∧ query.entity = listing.statement.entity ∧
      ∀ db, query.window (query.ordered db) =
        (listing.shown db bound).take (limit.toNat + 1) := by
  cases cursor with
  | none =>
      cases bound with
      | some env => cases hcursor
      | none =>
          refine ⟨(listing.sort.apply listing.statement).withLimit (limit.toNat + 1), ?_, rfl, ?_⟩
          · rw [query, prepareSortedQuery, validateLimit_ok hlimit]
            rfl
          · intro db
            rw [shown, ahead, filter_isAfter_none, Select.window]
            simp only [Select.withLimit, SortPlan.apply, Select.addOrder]
            rfl
  | some token =>
      cases bound with
      | none => cases hcursor
      | some env =>
          obtain ⟨condition, hboundary⟩ := SortPlan.boundary_isOk.mpr (hready env rfl)
          have hvalues : cursorValues listing.lib listing.codec listing.sort
              listing.queryFingerprint token = .ok (listing.sort.evals env) := hcursor
          refine ⟨(listing.sort.apply (listing.statement.where_ condition)).withLimit
            (limit.toNat + 1), ?_, rfl, ?_⟩
          · rw [query, prepareSortedQuery, validateLimit_ok hlimit, ok_bind, afterCursor, hvalues,
              ok_bind, hboundary]
            rfl
          · intro db
            have hafter : (listing.statement.kept db).filter
                (fun x => IsAfter listing.sort.order (some env) x) =
                  (listing.statement.where_ condition).kept db := by
              rw [Select.kept_where]
              refine List.filter_congr fun x _ => ?_
              rw [Bool.eq_iff_iff, beq_iff_eq, SortPlan.boundary_eq_true hboundary,
                decide_eq_true_iff]
              rfl
            rw [shown, ahead, hafter, Select.window]
            simp only [Select.withLimit, SortPlan.apply, Select.addOrder, Select.where_]
            rfl

/-- A query is built only with a limit in range and where there is a boundary. -/
theorem of_query {cursor : Option String} {bound : Option Env} {limit : Int}
    {query : Select Db Env Row} (hquery : listing.query cursor limit = .ok query)
    (hcursor : listing.CursorFor cursor bound) :
    (1 ≤ limit ∧ limit ≤ 500) ∧ listing.Ready bound := by
  obtain ⟨⟨⟩, hlimit, hquery⟩ := bind_eq_ok.mp hquery
  refine ⟨range_of_validateLimit hlimit, ?_⟩
  rintro env rfl
  cases cursor with
  | none => cases hcursor
  | some token =>
      obtain ⟨bounded, hbounded, -⟩ := bind_eq_ok.mp hquery
      obtain ⟨values, hvalues, hbounded⟩ := bind_eq_ok.mp hbounded
      obtain rfl := Except.ok.inj (hvalues.symm.trans hcursor)
      obtain ⟨condition, hboundary, -⟩ := bind_eq_ok.mp hbounded
      exact SortPlan.boundary_isOk.mp ⟨condition, hboundary⟩

theorem of_page [DecidableEq Id] {db : Db} {cursor : Option String} {bound : Option Env}
    {limit : Nat} {session : IdentityMap listing.orm} {page : CursorPage Row}
    (hpage : listing.page db cursor limit session = .ok page)
    (hcursor : listing.CursorFor cursor bound) :
    (1 ≤ limit ∧ limit ≤ 500) ∧ listing.Ready bound := by
  obtain ⟨query, hquery, -⟩ := bind_eq_ok.mp hpage
  obtain ⟨hlimit, hready⟩ := of_query hquery hcursor
  exact ⟨by omega, hready⟩

/-- The object a session returns for a row. -/
def object (listing : Listing Db Env Row Id) (session : IdentityMap listing.orm) (env : Env) :
    Row :=
  session.object (listing.statement.entity env)

theorem current_empty (env : Env) : listing.Current .empty env := nofun

theorem object_empty : listing.object .empty = listing.statement.entity := rfl

/-- The object of a row that is current has the values of the row. -/
theorem Current.valuesFrom {session : IdentityMap listing.orm} {env : Env}
    (h : listing.Current session env) (htrips : listing.RoundTrips env) :
    listing.sort.valuesFrom listing.orm.getattr (listing.object session env) =
      .ok (listing.sort.evals env) := by
  rw [object, IdentityMap.object]
  cases hheld : session.held (listing.orm.identity (listing.statement.entity env)) with
  | none => exact htrips.1
  | some held => exact h held hheld

/-- A page is built of the first rows it can show, one more than it holds. -/
theorem page_eq [DecidableEq Id] {db : Db} (hdb : listing.Admissible tie db)
    (session : IdentityMap listing.orm) {cursor : Option String} {bound : Option Env}
    (hcursor : listing.CursorFor cursor bound) (hready : listing.Ready bound)
    {limit : Nat} (hlimit : 1 ≤ limit ∧ limit ≤ 500) :
    listing.page db cursor limit session =
      buildSortedPage listing.lib listing.orm listing.codec listing.sort listing.queryFingerprint
        limit (((listing.shown db bound).take (limit + 1)).map (listing.object session)) := by
  have hlimit' : (1 : Int) ≤ (limit : Int) ∧ (limit : Int) ≤ 500 := by omega
  obtain ⟨query, hquery, hentity, hwindow⟩ := query_shown hcursor hready hlimit'
  have hdistinct : (listing.ahead db bound).Pairwise fun a b =>
      listing.orm.identity (listing.statement.entity a) ≠
        listing.orm.identity (listing.statement.entity b) :=
    ((sortBy_perm _ _).pairwise_iff fun h => h.symm).mpr (hdb.oneRow.sublist List.filter_sublist)
  have hrows : uniqueScalars listing.orm ((query.execute db).map session.object) =
      ((listing.shown db bound).take (limit + 1)).map (listing.object session) := by
    rw [Select.execute, hwindow, hentity, Int.toNat_natCast, List.map_map]
    refine uniqueScalars_eq_self (List.pairwise_map.mpr ?_)
    refine (hdistinct.sublist ((List.take_sublist _ _).trans (List.drop_sublist _ _))).imp ?_
    intro a b hne
    simpa using hne
  rw [Listing.query] at hquery
  simp only [page, paginateSync, hquery, ok_bind, hrows]

/-- A page that leaves rows holds the first ones, and its cursor is the one after the last. -/
theorem page_more [DecidableEq Id] {db : Db} (hdb : listing.Admissible tie db)
    (session : IdentityMap listing.orm) {cursor : Option String} {bound : Option Env}
    (hcursor : listing.CursorFor cursor bound) (hready : listing.Ready bound)
    {limit : Nat} (hlimit : 1 ≤ limit ∧ limit ≤ 500)
    (hmore : limit < (listing.shown db bound).length)
    (hcurrent : ∀ env ∈ (listing.shown db bound).take limit, listing.Current session env) :
    ∃ last token, ((listing.shown db bound).take limit).getLast? = some last ∧
      listing.CursorFor (some token) (some last) ∧ listing.page db cursor limit session =
        .ok ⟨((listing.shown db bound).take limit).map (listing.object session), some token,
          true⟩ := by
  obtain ⟨last, hlast⟩ := exists_getLast_take hlimit.1 hmore
  have hmem := List.mem_of_getLast? hlast
  have htrips := hdb.roundTrips last (mem_of_mem_shown (List.mem_of_mem_take hmem)).1
  have hvalues := (hcurrent last hmem).valuesFrom htrips
  obtain ⟨-, token, hencode, htoken⟩ := htrips
  have hcursorAfter : cursorAfter listing.lib listing.orm listing.codec listing.sort
      listing.queryFingerprint (listing.object session last) = .ok token := by
    rw [cursorAfter, hvalues]
    exact hencode
  have hlonger : limit <
      (((listing.shown db bound).take (limit + 1)).map (listing.object session)).length := by
    rw [List.length_map, List.length_take]
    omega
  refine ⟨last, token, hlast, htoken, ?_⟩
  rw [page_eq hdb session hcursor hready hlimit, buildSortedPage, buildPage, Int.toNat_natCast,
    decide_eq_true hlonger, ← List.map_take, List.take_take, Nat.min_eq_left (Nat.le_succ limit),
    List.getLast?_map, hlast]
  simp [hcursorAfter]

/-- Any other page holds the rows there are. -/
theorem page_last [DecidableEq Id] {db : Db} (hdb : listing.Admissible tie db)
    (session : IdentityMap listing.orm) {cursor : Option String} {bound : Option Env}
    (hcursor : listing.CursorFor cursor bound) (hready : listing.Ready bound)
    {limit : Nat} (hlimit : 1 ≤ limit ∧ limit ≤ 500)
    (hall : (listing.shown db bound).length ≤ limit) :
    listing.page db cursor limit session =
      .ok ⟨(listing.shown db bound).map (listing.object session), none, false⟩ := by
  have hnot : ¬limit < ((listing.shown db bound).map (listing.object session)).length := by
    rw [List.length_map]
    omega
  rw [page_eq hdb session hcursor hready hlimit, List.take_of_length_le (by omega),
    buildSortedPage, buildPage, Int.toNat_natCast, decide_eq_false hnot,
    List.take_of_length_le (by omega)]

/-- A page of a statement without an order of its own holds the first items after the bound. -/
theorem page_found [DecidableEq Id] (hplain : listing.Plain) {db : Db}
    (hdb : listing.Admissible tie db) (session : IdentityMap listing.orm)
    {cursor : Option String} {bound : Option Env} (hcursor : listing.CursorFor cursor bound)
    (hready : listing.Ready bound) {limit : Nat} (hlimit : 1 ≤ limit ∧ limit ≤ 500) :
    let items := found listing.sort.order (listing.statement.kept db) bound
    (∀ env ∈ items.take limit, listing.Current session env) →
    ∃ nextCursor, listing.page db cursor limit session =
        .ok ⟨(items.take limit).map (listing.object session), nextCursor,
          decide (limit < items.length)⟩ ∧
      (limit < items.length → listing.CursorFor nextCursor (items.take limit).getLast?) := by
  have hoffset : listing.statement.offset.getD 0 = 0 := by rw [hplain.2, Option.getD_none]
  rw [← ahead_of_plain hplain, ← shown_eq_ahead hoffset]
  intro items hcurrent
  rcases Nat.lt_or_ge limit (listing.shown db bound).length with hmore | hall
  · obtain ⟨last, token, hlast, htoken, hpage⟩ :=
      page_more hdb session hcursor hready hlimit hmore hcurrent
    rw [← decide_eq_true hmore] at hpage
    exact ⟨some token, hpage, fun _ => hlast.symm ▸ htoken⟩
  · have hnot : ¬limit < (listing.shown db bound).length := by omega
    refine ⟨none, ?_, fun h => absurd h hnot⟩
    rw [page_last hdb session hcursor hready hlimit hall, decide_eq_false hnot,
      List.take_of_length_le hall]

/-! ## The walk is a keyset walk -/

/-- What a walk looks at in a row object: its entity and its values. -/
def key (listing : Listing Db Env Row Id) (row : Row) : Id × Except PyError (List Cell) :=
  (listing.orm.identity row, listing.sort.valuesFrom listing.orm.getattr row)

/-- The same of a row of the statement. -/
def rowKey (listing : Listing Db Env Row Id) (env : Env) : Id × Except PyError (List Cell) :=
  (listing.orm.identity (listing.statement.entity env), .ok (listing.sort.evals env))

/-- A walk of a client and a walk over the rows of the statement. -/
structure Related (listing : Listing Db Env Row Id) (tie : SortField Env Row)
    (s : PageWalk listing) (w : Walk Env) : Prop where
  admissible : listing.Admissible tie s.db
  table : w.table = listing.statement.kept s.db
  returned : s.returned.map listing.key = w.returned.map listing.rowKey
  finished : s.finished = w.finished
  cursor : w.finished = false → listing.CursorFor s.cursor w.bound
  last : w.finished = false → w.bound = w.returned.getLast?

/-- The rows a page shows of a walk. -/
theorem window_found {cursor : Option String} {bound : Option Env} (hplain : listing.Plain)
    (hcursor : listing.CursorFor cursor bound) {limit : Nat} {query : Select Db Env Row}
    (hquery : listing.query cursor limit = .ok query) (db : Db) :
    (query.window (query.ordered db)).take limit =
      (found listing.sort.order (listing.statement.kept db) bound).take limit := by
  have hoffset : listing.statement.offset.getD 0 = 0 := by rw [hplain.2, Option.getD_none]
  obtain ⟨hlimit, hready⟩ := of_query hquery hcursor
  obtain ⟨query', hquery', -, hwindow⟩ := query_shown hcursor hready hlimit
  obtain rfl := Except.ok.inj (hquery.symm.trans hquery')
  rw [hwindow, shown_eq_ahead hoffset, ahead_of_plain hplain, Int.toNat_natCast, List.take_take,
    Nat.min_eq_left (Nat.le_succ limit)]

/-- The rows a walk shows are current when it finds no older copy. -/
theorem Related.current (hplain : listing.Plain) {s : PageWalk listing} {w : Walk Env}
    (h : listing.Related tie s w) (hgoing : s.finished = false) {limit : Nat}
    (hlimit : 1 ≤ limit ∧ limit ≤ 500) (hready : listing.Ready w.bound)
    (hcurrent : listing.FindsCurrent s (.fetch limit)) :
    ∀ env ∈ (found listing.sort.order (listing.statement.kept s.db) w.bound).take limit,
      listing.Current s.session env := by
  have hcursor := h.cursor (h.finished ▸ hgoing)
  have hlimit' : (1 : Int) ≤ (limit : Int) ∧ (limit : Int) ≤ 500 := by omega
  obtain ⟨query, hquery, -⟩ := query_shown hcursor hready hlimit'
  intro env henv
  exact hcurrent query hquery env (window_found hplain hcursor hquery s.db ▸ henv)

theorem Related.fetch [DecidableEq Id] (hplain : listing.Plain) {s : PageWalk listing}
    {w : Walk Env} (h : listing.Related tie s w) (hgoing : s.finished = false) {limit : Nat}
    (hcurrent : listing.FindsCurrent s (.fetch limit)) {page : CursorPage Row}
    (hpage : listing.page s.db s.cursor limit s.session = .ok page)
    (session : IdentityMap listing.orm) :
    0 < limit ∧ listing.Related tie
      ⟨s.db, session, page.nextCursor, s.returned ++ page.items, !page.hasMore⟩
      (w.fetch listing.sort.order limit) := by
  have hcursor := h.cursor (h.finished ▸ hgoing)
  obtain ⟨hlimit, hready⟩ := of_page hpage hcursor
  have hrows := h.current hplain hgoing hlimit hready hcurrent
  obtain ⟨nextCursor, hpage', hnext⟩ :=
    page_found hplain h.admissible s.session hcursor hready hlimit hrows
  obtain rfl := Except.ok.inj (hpage.symm.trans hpage')
  have hkeys : ((found listing.sort.order (listing.statement.kept s.db) w.bound).take limit).map
      (listing.key ∘ listing.object s.session) =
      ((found listing.sort.order (listing.statement.kept s.db) w.bound).take limit).map
        listing.rowKey := by
    refine List.map_congr_left fun env henv => ?_
    have htrips := h.admissible.roundTrips env (mem_found.mp (List.mem_of_mem_take henv)).1
    exact Prod.ext (IdentityMap.identity_object _ _) ((hrows env henv).valuesFrom htrips)
  refine ⟨hlimit.1, ⟨h.admissible, h.table, ?_, ?_, ?_, ?_⟩⟩
  · simp only [Walk.fetch, List.map_append, h.returned, h.table, List.map_map, hkeys]
  · simp only [Walk.fetch, h.table]
  · intro hmore
    rw [← h.table] at hnext
    refine hnext ?_
    simpa [Walk.fetch] using hmore
  · intro hmore
    have hlonger : limit < (found listing.sort.order w.table w.bound).length := by
      simpa [Walk.fetch] using hmore
    obtain ⟨last, hlast⟩ := exists_getLast_take hlimit.1 hlonger
    simp only [Walk.fetch, List.getLast?_append, hlast, Option.some_or]

/-- The walks of a client that finds no older copies are walks over the rows of the statement. -/
theorem walk_refines [DecidableEq Id] (hplain : listing.Plain)
    (htie : ∃ term ∈ listing.sort.terms, term.field = tie) :
    ((listing.walk tie).under listing.FindsCurrent).Simulates (keysetWalk listing.sort.order)
      (listing.Related tie) := by
  rintro s label t ⟨hstep, hcurrent⟩ w h
  cases label with
  | write =>
      obtain ⟨hdb, ht⟩ := hstep
      refine ⟨{ w with table := listing.statement.kept t.db }, ?_, hdb.distinct htie, rfl⟩
      rw [ht]
      exact ⟨hdb, rfl, h.returned, h.finished, h.cursor, h.last⟩
  | fetch limit =>
      obtain ⟨hgoing, page, hpage, rfl⟩ := hstep
      obtain ⟨hlimit, hrelated⟩ := h.fetch hplain hgoing hcurrent hpage _
      exact ⟨_, hrelated, h.finished ▸ hgoing, hlimit, rfl⟩

theorem walk_init [DecidableEq Id] (htie : ∃ term ∈ listing.sort.terms, term.field = tie)
    {s : PageWalk listing} (hinit : (listing.walk tie).init s) :
    ∃ w, listing.Related tie s w ∧ (keysetWalk listing.sort.order).init w := by
  obtain ⟨hcursor, hreturned, hfinished, hdb⟩ := hinit
  refine ⟨⟨listing.statement.kept s.db, none, [], false⟩, ⟨hdb, rfl, ?_, hfinished, ?_, ?_⟩,
    rfl, rfl, rfl, hdb.distinct htie⟩
  · rw [hreturned]
    rfl
  · intro _
    rw [hcursor]
    trivial
  · exact fun _ => rfl

/-! ## What a walk returns -/

/-- Two rows of the statement are in the order of the plan exactly when the row objects are. -/
theorem before_entity {a b : Env} (ha : listing.RoundTrips a) (hb : listing.RoundTrips b)
    (h : listing.sort.order a b = .lt) :
    listing.Before (listing.statement.entity a) (listing.statement.entity b) :=
  ⟨_, _, ha.1, hb.1, (compareCells_evals listing.sort a b).trans h⟩

theorem order_of_evals {a b : Env} (h : listing.sort.evals a = listing.sort.evals b) :
    listing.sort.order a b = .eq := by
  have := listing.sort.transCmp_order
  rw [← compareCells_evals, ← h, compareCells_evals]
  exact Std.ReflCmp.compare_self

/-- The rows returned are strictly increasing, so two of one entity have different values. -/
theorem returned_increasing [DecidableEq Id] (hplain : listing.Plain)
    (htie : ∃ term ∈ listing.sort.terms, term.field = tie) {history : List WalkLabel}
    {s : PageWalk listing}
    (hr : ((listing.walk tie).under listing.FindsCurrent).Reaches history s) :
    s.returned.Pairwise fun a b => listing.Before a b ∧
      listing.sort.valuesFrom listing.orm.getattr a ≠
        listing.sort.valuesFrom listing.orm.getattr b := by
  obtain ⟨w, hw, hreaches⟩ := (walk_refines hplain htie).reaches (fun _ => walk_init htie) hr
  have hsorted := (Walk.sound listing.sort.transCmp_order hreaches).sorted
  have hkeys : (w.returned.map listing.rowKey).Pairwise fun a b =>
      (∃ va vb, a.2 = .ok va ∧ b.2 = .ok vb ∧ compareCells listing.sort.terms va vb = .lt) ∧
        a.2 ≠ b.2 := by
    rw [List.pairwise_map]
    refine hsorted.imp ?_
    intro a b hlt
    refine ⟨⟨_, _, rfl, rfl, (compareCells_evals listing.sort a b).trans hlt⟩, ?_⟩
    intro hsame
    rw [order_of_evals (Except.ok.inj hsame)] at hlt
    cases hlt
  rwa [← hw.returned, List.pairwise_map] at hkeys

/-- A fetch with a limit in range that finds no older copy returns a page, wherever the walk is,
unless the last row it returned has a `bool`. -/
theorem page_returns [DecidableEq Id] (hplain : listing.Plain)
    (htie : ∃ term ∈ listing.sort.terms, term.field = tie) {history : List WalkLabel}
    {s : PageWalk listing}
    (hr : ((listing.walk tie).under listing.FindsCurrent).Reaches history s)
    (hgoing : s.finished = false) {limit : Nat} (hlimit : 1 ≤ limit ∧ limit ≤ 500)
    (hcurrent : listing.FindsCurrent s (.fetch limit))
    (hbool : ∀ row values, s.returned.getLast? = some row →
      listing.sort.valuesFrom listing.orm.getattr row = .ok values → ∀ b, some (.bool b) ∉ values) :
    ∃ page, listing.page s.db s.cursor limit s.session = .ok page := by
  obtain ⟨w, hw, -⟩ := (walk_refines hplain htie).reaches (fun _ => walk_init htie) hr
  have hready : listing.Ready w.bound := by
    intro env henv term hterm b hcell
    rw [hw.last (hw.finished ▸ hgoing)] at henv
    have hlast : (s.returned.map listing.key).getLast? = some (listing.rowKey env) := by
      rw [hw.returned, List.getLast?_map, henv]
      rfl
    obtain ⟨row, hrow, hkey⟩ := Option.map_eq_some_iff.mp (List.getLast?_map ▸ hlast)
    refine hbool row _ hrow (congrArg Prod.snd hkey) b ?_
    exact List.mem_map.mpr ⟨term, hterm, hcell⟩
  obtain ⟨nextCursor, hpage, -⟩ := page_found hplain hw.admissible s.session
    (hw.cursor (hw.finished ▸ hgoing)) hready hlimit
      (hw.current hplain hgoing hlimit hready hcurrent)
  exact ⟨_, hpage⟩

/-- The entity satisfies the statement, with these values of the sort expressions. -/
def Lists (listing : Listing Db Env Row Id) (entity : Id) (values : List Cell) (db : Db) : Prop :=
  ∃ env ∈ listing.statement.kept db,
    listing.orm.identity (listing.statement.entity env) = entity ∧ listing.sort.evals env = values

/-- The statement yields no other row of the entity. -/
theorem Admissible.eq_of_identity {db : Db} (h : listing.Admissible tie db) {a b : Env}
    (ha : a ∈ listing.statement.kept db) (hb : b ∈ listing.statement.kept db)
    (hsame : listing.orm.identity (listing.statement.entity a) =
      listing.orm.identity (listing.statement.entity b)) : a = b :=
  List.inj_on_of_nodup_map (List.pairwise_map.mpr h.oneRow) ha hb hsame

/-- An entity that is listed all the time, with the same values, is returned exactly once by a walk
that ends. -/
theorem returned_once [DecidableEq Id] (hplain : listing.Plain)
    (htie : ∃ term ∈ listing.sort.terms, term.field = tie) {entity : Id} {values : List Cell}
    {history : List WalkLabel} {s : PageWalk listing}
    (hr : (((listing.walk tie).under listing.FindsCurrent).throughout fun s =>
      listing.Lists entity values s.db).Reaches history s) (hfinished : s.finished = true) :
    s.returned.countP (fun row => listing.orm.identity row = entity) = 1 := by
  let isEntity := fun env => listing.orm.identity (listing.statement.entity env) = entity
  let isRow := fun env => isEntity env ∧ listing.sort.evals env = values
  have hkey : ∀ a b, isRow a → isRow b → listing.sort.order a b = .eq :=
    fun a b ha hb => order_of_evals (ha.2.trans hb.2.symm)
  -- The table always has the row, and no other row of the entity.
  have hpresent : ∀ s w, listing.Related tie s w → listing.Lists entity values s.db →
      (∃ env ∈ w.table, isRow env) ∧ ∀ env ∈ w.table, isEntity env → isRow env := by
    rintro s w hw ⟨row, hrow, hidentity, hvalues⟩
    rw [hw.table]
    refine ⟨⟨row, hrow, hidentity, hvalues⟩, ?_⟩
    intro env henv hentity
    rw [hw.admissible.eq_of_identity henv hrow (hentity.trans hidentity.symm)]
    exact ⟨hidentity, hvalues⟩
  obtain ⟨w, hw, hreaches⟩ := ((walk_refines hplain htie).throughout hpresent).reaches
    (fun s hs => by
      obtain ⟨w, hw, hinit⟩ := walk_init htie hs.1
      exact ⟨w, hw, hinit, hpresent s w hw hs.2⟩) hr
  have hcmp := listing.sort.transCmp_order
  have hall : ∀ env ∈ w.returned, isEntity env → isRow env :=
    Walk.returned_forall (hreaches.throughout_imp fun _ h => h.2)
  have hreturned : ∃ env ∈ w.returned, isRow env := by
    rcases Walk.tracks hcmp hkey (hreaches.throughout_imp fun _ h => h.1) with h | ⟨hgoing, -⟩
    · exact h
    · rw [← hw.finished, hfinished] at hgoing
      cases hgoing
  have hmost : w.returned.countP (fun env => decide (isEntity env)) ≤ 1 := by
    refine countP_le_one (Walk.sound hcmp hreaches.of_throughout).sorted ?_
    intro a ha b hb hqa hqb
    exact hkey a b (hall a ha (of_decide_eq_true hqa)) (hall b hb (of_decide_eq_true hqb))
  have hleast : 0 < w.returned.countP (fun env => decide (isEntity env)) := by
    obtain ⟨env, henv, hrow⟩ := hreturned
    exact List.countP_pos_iff.mpr ⟨env, henv, decide_eq_true hrow.1⟩
  have hcount : s.returned.countP (fun row => listing.orm.identity row = entity) =
      w.returned.countP fun env => decide (isEntity env) := by
    have hkeys := congrArg (List.countP fun key => decide (key.1 = entity)) hw.returned
    rwa [List.countP_map, List.countP_map] at hkeys
  rw [hcount]
  exact Nat.le_antisymm hmost hleast

/-- A walk of a listing returns its rows in strictly increasing order of the plan, no entity twice
with the same values, and when it ends every entity that was listed all the time with the same
values exactly once, in every run in which no page finds an older copy of one of its rows in the
session of the client. -/
theorem keyset_walk [DecidableEq Id] {registry : SortRegistry Env Row} {terms : List SortCriterion}
    (hplan : registry.resolve listing.lib terms = .ok listing.sort) (hplain : listing.Plain) :
    (∀ history s, ((listing.walk registry.tieField).under listing.FindsCurrent).Reaches history s →
      s.returned.Pairwise listing.Before ∧
      (s.returned.Pairwise fun a b => listing.orm.identity a = listing.orm.identity b →
        listing.sort.valuesFrom listing.orm.getattr a ≠
          listing.sort.valuesFrom listing.orm.getattr b) ∧
      (s.finished = false → ∀ limit : Nat, 1 ≤ limit → limit ≤ 500 →
        listing.FindsCurrent s (.fetch limit) →
        (∀ row values, s.returned.getLast? = some row →
          listing.sort.valuesFrom listing.orm.getattr row = .ok values →
            ∀ b, some (.bool b) ∉ values) →
        ∃ page, listing.page s.db s.cursor limit s.session = .ok page)) ∧
    ∀ entity values history s,
      (((listing.walk registry.tieField).under listing.FindsCurrent).throughout fun s =>
        listing.Lists entity values s.db).Reaches history s → s.finished = true →
      s.returned.countP (fun row => listing.orm.identity row = entity) = 1 := by
  have htie := SortRegistry.resolve_tie hplan
  refine ⟨?_, fun entity values history s hr => returned_once hplain htie hr⟩
  intro history s hr
  have hincreasing := returned_increasing hplain htie hr
  refine ⟨hincreasing.imp fun h => h.1, hincreasing.imp fun h _ => h.2, ?_⟩
  intro hgoing limit hpos hle hcurrent hbool
  exact page_returns hplain htie hr hgoing ⟨hpos, hle⟩ hcurrent hbool

/-! ## A walk over two events -/

/-- The active events. -/
def eventListing : Listing (List Int) Int Int Int where
  lib := eventLibrary
  orm := { getattr := fun id _ => .ok (some (.int id)), identity := id }
  codec := sampleCodec
  sort := eventPlan
  queryFingerprint := some "active"
  statement := eventStatement

theorem plain_eventListing : eventListing.Plain := ⟨rfl, rfl⟩

/-- The cursors after the events are written and read. -/
theorem cursor_event {id : Int} (h : id = 7 ∨ id = 9) :
    ∃ token, sampleCodec.encodeState eventLibrary
        ⟨eventFingerprint, [some (.int id)], some "active"⟩ = .ok token ∧
      sampleCodec.decodeState eventLibrary token =
        .ok ⟨eventFingerprint, [.int id], some "active"⟩ := by
  rcases h with rfl | rfl
  · exact ⟨sampleCodec.sign eventLibrary cursorText7.value, rfl, CursorCodec.decodeState_sign rfl⟩
  · exact ⟨sampleCodec.sign eventLibrary cursorText9.value, rfl, CursorCodec.decodeState_sign rfl⟩

theorem roundTrips_event {id : Int} (h : id = 7 ∨ id = 9) : eventListing.RoundTrips id := by
  obtain ⟨token, hencode, hdecode⟩ := cursor_event h
  refine ⟨rfl, token, hencode, ?_⟩
  simp only [IsCursor, cursorValues, eventListing, hdecode]
  rfl

theorem kept_eventListing (db : List Int) : eventListing.statement.kept db = db :=
  List.filter_eq_self.mpr fun _ _ => rfl

theorem admissible_events {db : List Int} (hdb : db.Nodup) (hids : ∀ id ∈ db, id = 7 ∨ id = 9) :
    eventListing.Admissible idField db where
  oneRow := by
    rw [kept_eventListing]
    exact hdb
  notNull := fun _ _ h => Option.some_ne_none _ h
  unique := by
    rw [kept_eventListing]
    refine hdb.imp ?_
    intro a b hne va vb hva hvb heq
    obtain rfl := Option.some.inj hva
    obtain rfl := Option.some.inj hvb
    have hcompare : compare a b = .eq := heq
    exact hne (compare_eq_iff_eq.mp hcompare)
  roundTrips := by
    rw [kept_eventListing]
    exact fun id hid => roundTrips_event (hids id hid)

theorem order_eventPlan (a b : Int) : eventPlan.order a b = compare a b := by
  cases h : compare a b <;>
    simp [SortPlan.order, eventPlan, ResolvedSortTerm.orderBy, ResolvedSortTerm.compareCells,
      placeNulls, idField, intColumn, compareOn, h]

theorem found_events :
    found eventListing.sort.order (eventListing.statement.kept [7, 9]) none = [7, 9] ∧
      found eventListing.sort.order (eventListing.statement.kept [9]) (some 7) = [9] := by
  have hsorted : sortBy eventPlan.order [7, 9] = [7, 9] :=
    List.mergeSort_of_pairwise (by simp only [order_eventPlan]; decide)
  have hafter : eventPlan.order 7 9 = .lt := order_eventPlan 7 9
  constructor
  · rw [kept_eventListing]
    exact hsorted
  · rw [kept_eventListing]
    simp [found, IsAfter, eventListing, hafter, sortBy]

theorem current_event (session : IdentityMap eventListing.orm) (id : Int) :
    eventListing.Current session id := by
  intro held hheld
  rw [show held = id from session.identity_held hheld]
  rfl

theorem findsCurrent_events (s : PageWalk eventListing) (label : WalkLabel) :
    eventListing.FindsCurrent s label := by
  cases label with
  | write => trivial
  | fetch limit => exact fun _ _ id _ => current_event s.session id

theorem comparable_event (id : Int) : eventPlan.Comparable id := by
  intro term hterm b
  obtain rfl := List.mem_singleton.mp hterm
  exact nofun

/-- The walks along which the event 9 is listed all the time. -/
def eventWalk : System (PageWalk eventListing) WalkLabel :=
  ((eventListing.walk idField).under eventListing.FindsCurrent).throughout fun s =>
    eventListing.Lists 9 [some (.int 9)] s.db

/-- The first page has the event 7; then the event 7 is deleted; the second page has the event 9. -/
theorem events_walk :
    ∃ s, eventWalk.Reaches [.fetch 1, .write, .fetch 1] s ∧ s.finished = true ∧
      s.returned = [7, 9] := by
  have hboth : eventListing.Admissible idField [7, 9] := admissible_events (by decide) (by simp)
  have hlast : eventListing.Admissible idField [9] := admissible_events (by decide) (by simp)
  have hlists : ∀ db : List Int, 9 ∈ db → eventListing.Lists 9 [some (.int 9)] db := by
    intro db hmem
    exact ⟨9, (kept_eventListing db).symm ▸ hmem, rfl, rfl⟩
  have hlimit : 1 ≤ 1 ∧ 1 ≤ 500 := by decide
  have hstart : eventListing.CursorFor none none := trivial
  have hready : eventListing.Ready (some 7) := fun id _ => comparable_event id
  obtain ⟨token, hpage, hcursor⟩ := page_found plain_eventListing hboth .empty hstart ready_none
    hlimit fun id _ => current_event _ id
  rw [found_events.1] at hpage hcursor
  have hnext : eventListing.CursorFor token (some 7) := hcursor (by decide)
  obtain ⟨nextCursor, hpage', -⟩ := page_found plain_eventListing hlast .empty hnext hready
    hlimit fun id _ => current_event _ id
  rw [found_events.2] at hpage'
  have hinit : eventWalk.init ⟨[7, 9], .empty, none, [], false⟩ :=
    ⟨⟨rfl, rfl, rfl, hboth⟩, hlists [7, 9] (by decide)⟩
  have hfetch := (System.Reaches.init hinit).step
    ⟨⟨walk_fetch rfl hpage, findsCurrent_events _ _⟩, hlists [7, 9] (by decide)⟩
  have hdelete := hfetch.step ⟨⟨walk_write hlast .empty, trivial⟩, hlists [9] (by decide)⟩
  have hfetch' := hdelete.step
    ⟨⟨walk_fetch rfl hpage', findsCurrent_events _ _⟩, hlists [9] (by decide)⟩
  exact ⟨_, hfetch', rfl, rfl⟩

theorem keyset_walk_events :
    ∃ s, (eventListing.walk idField).Reaches [.fetch 1, .write, .fetch 1] s ∧
      s.returned = [7, 9] ∧ s.returned.Pairwise eventListing.Before ∧
      s.returned.countP (fun row => eventListing.orm.identity row = (9 : Int)) = 1 := by
  obtain ⟨s, hr, hfinished, hreturned⟩ := events_walk
  have hplan : eventRegistry.resolve eventListing.lib [] = .ok eventListing.sort :=
    resolve_eventPlan
  have hwalk := keyset_walk hplan plain_eventListing
  exact ⟨s, hr.of_throughout.of_under, hreturned, (hwalk.1 _ s hr.of_throughout).1,
    hwalk.2 9 [some (.int 9)] _ s hr hfinished⟩

/-! ## A walk that finds an older copy -/

/-- A task: its identifier and its rank. -/
abbrev RankedTask := Int × Int

/-- The ranks, in their order. -/
def rankColumn : Column RankedTask where
  key := some "rank"
  type := .bigInteger
  nullable := false
  unique := true
  eval task := some (.int task.2)
  compare := intColumn.compare
  compare_trans := intColumn.compare_trans

def rankField : SortField RankedTask RankedTask where
  name := "rank"
  expression := rankColumn
  accessor := none
  defaultNulls := .last
  nullable := false
  unique := true
  name_public := by decide

/-- A registry with the ranks only. -/
def rankRegistry : SortRegistry RankedTask RankedTask where
  name := "tasks"
  fields := [("rank", rankField)]
  default := [{ field := "rank" }]
  tieBreaker := { field := "rank" }
  tieBreakerWasString := true
  tieField := rankField
  default_ne := List.cons_ne_nil _ _
  requireField_tie := rfl
  tie_not_nullable := rfl
  tie_unique := rfl

def rankFingerprint : String := "42b1160b7b067d9d6e6717ee"

/-- The text the fingerprint of the plan is made of. -/
def rankFingerprintText : KnownText where
  value := fingerprintPayload "tasks" [("rank", .asc, .last)]
  text := "\x7b\"registry\":\"tasks\",\"terms\":[\x7b\"direction\":\"asc\"," ++
    "\"field\":\"rank\",\"nulls\":\"last\"\x7d]\x7d"
  hexdigest := "42b1160b7b067d9d6e6717ee87d32d4bc1aa010948f1d85901d3ad04dbdb4832"

/-- The payload of the cursor after the rank 1. -/
def rankText1 : KnownText where
  value := statePayload ⟨rankFingerprint, [.int 1], none⟩
  text := "\x7b\"q\":null,\"s\":\"42b1160b7b067d9d6e6717ee\",\"v\":2,\"values\":[1]\x7d"
  digest := 0x7c0dff8f6faeb690a19071a6cd13219994fc6ee51e3fc0be0b7490f496b372b4

def rankText2 : KnownText where
  value := statePayload ⟨rankFingerprint, [.int 2], none⟩
  text := "\x7b\"q\":null,\"s\":\"42b1160b7b067d9d6e6717ee\",\"v\":2,\"values\":[2]\x7d"
  digest := 0x52d044a0935281ee01db6a570fbe64365cbe084fb068cd5830963ccda1b7c1c6

def rankText3 : KnownText where
  value := statePayload ⟨rankFingerprint, [.int 3], none⟩
  text := "\x7b\"q\":null,\"s\":\"42b1160b7b067d9d6e6717ee\",\"v\":2,\"values\":[3]\x7d"
  digest := 0x9fb1b24636c47b175de6aa318632e866eba67597f64871c08a091558fdab9438

def rankText4 : KnownText where
  value := statePayload ⟨rankFingerprint, [.int 4], none⟩
  text := "\x7b\"q\":null,\"s\":\"42b1160b7b067d9d6e6717ee\",\"v\":2,\"values\":[4]\x7d"
  digest := 0xf50e197b796d20fd8c471f87dc2d4acf01c9a0717cecb337855558855e115c66

/-- The library on the fingerprint of the plan and on these cursors. -/
def rankLibrary : Primitives :=
  .onTexts [rankFingerprintText, rankText1, rankText2, rankText3, rankText4] fun value =>
    if (value.field "registry").isSome then rankFingerprintText
    else match value.field "values" with
      | some (.arr [.int 2]) => rankText2
      | some (.arr [.int 3]) => rankText3
      | some (.arr [.int 4]) => rankText4
      | _ => rankText1

def rankPlan : SortPlan RankedTask RankedTask := ⟨[⟨rankField, .asc, .last⟩], rankFingerprint⟩

theorem resolve_rankPlan : rankRegistry.resolve rankLibrary [] = .ok rankPlan := rfl

/-- All tasks by their ranks. -/
def rankListing : Listing (List RankedTask) RankedTask RankedTask Int where
  lib := rankLibrary
  orm := { getattr := fun task _ => .ok (some (.int task.2)), identity := Prod.fst }
  codec := sampleCodec
  sort := rankPlan
  queryFingerprint := none
  statement := { source := fun db => db, entity := fun task => task }

/-- The payload of the cursor after a rank of the example. -/
def rankText (rank : Int) : KnownText :=
  if rank = 1 then rankText1 else if rank = 2 then rankText2 else if rank = 3 then rankText3
  else rankText4

/-- The token of the cursor after a rank of the example. -/
def rankToken (rank : Int) : String := sampleCodec.sign rankLibrary (rankText rank).value

theorem rank_cursor {rank : Int} (h : rank ∈ [1, 2, 3, 4]) :
    sampleCodec.encodeState rankLibrary ⟨rankFingerprint, [some (.int rank)], none⟩ =
        .ok (rankToken rank) ∧
      sampleCodec.decodeState rankLibrary (rankToken rank) =
        .ok ⟨rankFingerprint, [.int rank], none⟩ := by
  simp only [List.mem_cons, List.not_mem_nil, or_false] at h
  rcases h with rfl | rfl | rfl | rfl <;>
    exact ⟨rfl, CursorCodec.decodeState_sign rfl⟩

theorem isCursor_rank {rank : Int} (h : rank ∈ [1, 2, 3, 4]) (id : Int) :
    rankListing.IsCursor (rankToken rank) (id, rank) := by
  simp only [IsCursor, cursorValues, rankListing, (rank_cursor h).2]
  rfl

theorem kept_rankListing (db : List RankedTask) : rankListing.statement.kept db = db :=
  List.filter_eq_self.mpr fun _ _ => rfl

/-- Tables of tasks with different identifiers and different ranks of the example. -/
theorem admissible_ranks {db : List RankedTask} (hids : (db.map Prod.fst).Nodup)
    (hranks : (db.map Prod.snd).Nodup) (hknown : ∀ task ∈ db, task.2 ∈ ([1, 2, 3, 4] : List Int)) :
    rankListing.Admissible rankField db where
  oneRow := by
    rw [kept_rankListing]
    exact List.pairwise_map.mp hids
  notNull := fun _ _ h => Option.some_ne_none _ h
  unique := by
    rw [kept_rankListing]
    refine (List.pairwise_map.mp hranks).imp ?_
    intro a b hne va vb hva hvb heq
    obtain rfl := Option.some.inj hva
    obtain rfl := Option.some.inj hvb
    have hcompare : compare a.2 b.2 = .eq := heq
    exact hne (compare_eq_iff_eq.mp hcompare)
  roundTrips := by
    rw [kept_rankListing]
    intro task htask
    exact ⟨rfl, rankToken task.2, (rank_cursor (hknown task htask)).1,
      isCursor_rank (hknown task htask) task.1⟩

theorem order_rankPlan (a b : RankedTask) : rankPlan.order a b = compare a.2 b.2 := by
  cases h : compare a.2 b.2 <;>
    simp [SortPlan.order, rankPlan, ResolvedSortTerm.orderBy, ResolvedSortTerm.compareCells,
      placeNulls, rankField, rankColumn, intColumn, compareOn, h]

/-- What a page can show of a table in the order of the ranks. -/
theorem shown_ranks {db : List RankedTask} (hsorted : db.Pairwise fun a b => a.2 ≤ b.2)
    (bound : Option RankedTask) : rankListing.shown db bound =
      db.filter fun task => bound.all fun task' => task'.2 < task.2 := by
  have hafter : ∀ task, decide (IsAfter rankListing.sort.order bound task) =
      bound.all fun task' => task'.2 < task.2 := by
    intro task
    cases bound with
    | none => rfl
    | some last =>
        rw [Option.all_some, decide_eq_decide]
        show rankPlan.order last task = .lt ↔ _
        rw [order_rankPlan, compare_lt_iff_lt]
  rw [shown_eq_ahead rfl, ahead_of_plain ⟨rfl, rfl⟩, found, kept_rankListing]
  simp only [hafter]
  refine List.mergeSort_of_pairwise ((hsorted.sublist List.filter_sublist).imp ?_)
  intro a b hle
  show (rankPlan.order a b).isLE = true
  rw [order_rankPlan, Ordering.isLE_iff_ne_gt]
  exact fun hgt => absurd (compare_gt_iff_gt.mp hgt) (Int.not_lt.mpr hle)

/-- A page of one row that leaves others. -/
theorem page_one [DecidableEq Id] {db : Db} (hdb : listing.Admissible tie db)
    (session : IdentityMap listing.orm) {cursor : Option String} {bound : Option Env}
    (hcursor : listing.CursorFor cursor bound) (hready : listing.Ready bound) {first second : Env}
    {rest : List Env} (hshown : listing.shown db bound = first :: second :: rest) {token : String}
    (htoken : cursorAfter listing.lib listing.orm listing.codec listing.sort
      listing.queryFingerprint (listing.object session first) = .ok token) :
    listing.page db cursor 1 session = .ok ⟨[listing.object session first], some token, true⟩ := by
  have hpage := page_eq hdb session hcursor hready (show 1 ≤ 1 ∧ 1 ≤ 500 by decide)
  rw [hshown] at hpage
  rw [show (1 : Int) = ((1 : Nat) : Int) from rfl, hpage]
  simp [buildSortedPage, buildPage, htoken]

/-- The rows that a page reads. -/
theorem rowsRead_shown (db : Db) {cursor : Option String} {bound : Option Env}
    (hcursor : listing.CursorFor cursor bound) (hready : listing.Ready bound) {limit : Nat}
    (hlimit : 1 ≤ limit ∧ limit ≤ 500) : listing.rowsRead db cursor limit =
      ((listing.shown db bound).take (limit + 1)).map listing.statement.entity := by
  have hlimit' : (1 : Int) ≤ (limit : Int) ∧ (limit : Int) ≤ 500 := by omega
  obtain ⟨query, hquery, hentity, hwindow⟩ := query_shown hcursor hready hlimit'
  rw [rowsRead, hquery]
  show (query.window (query.ordered db)).map query.entity = _
  rw [hwindow, hentity, Int.toNat_natCast]

theorem comparable_rank (task : RankedTask) : rankPlan.Comparable task := by
  intro term hterm b
  obtain rfl := List.mem_singleton.mp hterm
  exact nofun

/-- A page of one task that leaves others. -/
theorem rank_fetch {s : PageWalk rankListing} (first second task : RankedTask)
    (hgoing : s.finished = false) (hdb : rankListing.Admissible rankField s.db)
    {bound : Option RankedTask} (hcursor : rankListing.CursorFor s.cursor bound)
    {rest : List RankedTask} (hshown : rankListing.shown s.db bound = first :: second :: rest)
    (htask : s.session.object first = task) (hknown : task.2 ∈ ([1, 2, 3, 4] : List Int)) :
    (rankListing.walk rankField).step s (.fetch 1)
      ⟨s.db, s.session.load [first, second], some (rankToken task.2), s.returned ++ [task],
        false⟩ := by
  have hready : rankListing.Ready bound := fun env _ => comparable_rank env
  have hobject : rankListing.object s.session first = task := htask
  have htoken : cursorAfter rankListing.lib rankListing.orm rankListing.codec rankListing.sort
      rankListing.queryFingerprint (rankListing.object s.session first) =
        .ok (rankToken task.2) := by
    rw [hobject]
    exact (rank_cursor hknown).1
  have hpage := page_one hdb s.session hcursor hready hshown htoken
  have hread : rankListing.rowsRead s.db s.cursor (1 : Nat) = [first, second] := by
    rw [rowsRead_shown s.db hcursor hready (by decide), hshown]
    rfl
  have hstep : (rankListing.walk rankField).step s (.fetch 1) _ := walk_fetch hgoing hpage
  rwa [hread, hobject] at hstep

/-- The walks along which the second task is listed all the time. -/
def rankWalk : System (PageWalk rankListing) WalkLabel :=
  (rankListing.walk rankField).throughout fun s => rankListing.Lists 2 [some (.int 2)] s.db

/-- The first task is returned and kept, and so is the second one; then the rank of the first one is
changed from 1 to 3.  The third page finds the first task again, returns the object that is kept
and goes on after its rank 1, and the fourth page has the second task once more. -/
theorem older_copy_repeats_rows :
    rankRegistry.resolve rankLibrary [] = .ok rankPlan ∧ rankListing.Plain ∧
      ∃ s, rankWalk.Reaches [.fetch 1, .fetch 1, .write, .fetch 1, .fetch 1] s ∧
        s.returned = [(1, 1), (2, 2), (1, 1), (2, 2)] := by
  refine ⟨resolve_rankPlan, ⟨rfl, rfl⟩, ?_⟩
  have hbefore : rankListing.Admissible rankField [(1, 1), (2, 2), (3, 4)] :=
    admissible_ranks (by decide) (by decide) (by decide)
  have hafter : rankListing.Admissible rankField [(2, 2), (1, 3), (3, 4)] :=
    admissible_ranks (by decide) (by decide) (by decide)
  have hlists : ∀ db : List RankedTask, (2, 2) ∈ db →
      rankListing.Lists 2 [some (.int 2)] db := by
    intro db hmem
    exact ⟨(2, 2), (kept_rankListing db).symm ▸ hmem, rfl, rfl⟩
  have hshown : ∀ bound, rankListing.shown [(1, 1), (2, 2), (3, 4)] bound = _ :=
    shown_ranks (by decide)
  have hshown' : ∀ bound, rankListing.shown [(2, 2), (1, 3), (3, 4)] bound = _ :=
    shown_ranks (by decide)
  have hinit : rankWalk.init ⟨[(1, 1), (2, 2), (3, 4)], .empty, none, [], false⟩ :=
    ⟨⟨rfl, rfl, rfl, hbefore⟩, hlists _ (by decide)⟩
  -- The session keeps what the first two pages have read.
  let once : IdentityMap rankListing.orm := IdentityMap.empty.load [(1, 1), (2, 2)]
  let twice : IdentityMap rankListing.orm := once.load [(2, 2), (3, 4)]
  have hstart : rankListing.CursorFor none none := trivial
  have hcursor : ∀ task ∈ [(1, 1), (2, 2)],
      rankListing.CursorFor (some (rankToken task.2)) (some task) := by
    intro task htask
    simp only [List.mem_cons, List.not_mem_nil, or_false] at htask
    rcases htask with rfl | rfl
    · exact isCursor_rank (by decide) 1
    · exact isCursor_rank (by decide) 2
  have hfirst : rankWalk.step ⟨[(1, 1), (2, 2), (3, 4)], .empty, none, [], false⟩ (.fetch 1)
      ⟨[(1, 1), (2, 2), (3, 4)], once, some (rankToken 1), [(1, 1)], false⟩ :=
    ⟨rank_fetch (1, 1) (2, 2) (1, 1) rfl hbefore hstart (hshown none) rfl (by decide),
      hlists _ (by decide)⟩
  have hsecond : rankWalk.step
      ⟨[(1, 1), (2, 2), (3, 4)], once, some (rankToken 1), [(1, 1)], false⟩ (.fetch 1)
      ⟨[(1, 1), (2, 2), (3, 4)], twice, some (rankToken 2), [(1, 1), (2, 2)], false⟩ :=
    ⟨rank_fetch (2, 2) (3, 4) (2, 2) rfl hbefore (hcursor (1, 1) (by decide)) (hshown _) rfl
      (by decide),
      hlists _ (by decide)⟩
  have hchange : rankWalk.step
      ⟨[(1, 1), (2, 2), (3, 4)], twice, some (rankToken 2), [(1, 1), (2, 2)], false⟩ .write
      ⟨[(2, 2), (1, 3), (3, 4)], twice, some (rankToken 2), [(1, 1), (2, 2)], false⟩ :=
    ⟨walk_write hafter twice, hlists _ (by decide)⟩
  -- The third page reads the rank 3 and returns the object with the rank 1.
  have hthird : rankWalk.step
      ⟨[(2, 2), (1, 3), (3, 4)], twice, some (rankToken 2), [(1, 1), (2, 2)], false⟩ (.fetch 1)
      ⟨[(2, 2), (1, 3), (3, 4)], twice.load [(1, 3), (3, 4)], some (rankToken 1),
        [(1, 1), (2, 2), (1, 1)], false⟩ :=
    ⟨rank_fetch (1, 3) (3, 4) (1, 1) rfl hafter (hcursor (2, 2) (by decide)) (hshown' _) rfl
      (by decide),
      hlists _ (by decide)⟩
  have hfourth : rankWalk.step
      ⟨[(2, 2), (1, 3), (3, 4)], twice.load [(1, 3), (3, 4)], some (rankToken 1),
        [(1, 1), (2, 2), (1, 1)], false⟩ (.fetch 1)
      ⟨[(2, 2), (1, 3), (3, 4)], (twice.load [(1, 3), (3, 4)]).load [(2, 2), (1, 3)],
        some (rankToken 2), [(1, 1), (2, 2), (1, 1), (2, 2)], false⟩ :=
    ⟨rank_fetch (2, 2) (1, 3) (2, 2) rfl hafter (hcursor (1, 1) (by decide)) (hshown' _) rfl
      (by decide),
      hlists _ (by decide)⟩
  exact ⟨_, ((((System.Reaches.init hinit).step hfirst).step hsecond).step hchange).step hthird
    |>.step hfourth, rfl⟩

end Listing

end ProdkitStorage.Database
