import Mathlib.Data.List.Pairwise
import ProdkitStorage.Database.Following
import ProdkitStorage.Database.KeysetWalk
import ProdkitStorage.Foundation.Slices

/-!
# Statements with an order of their own

`SortPlan.apply` adds the order of the plan to the `ORDER BY` clause of the statement,
and the boundary knows only the plan.  The pages come in the order of the plan, and a
walk returns every row once, when the clause never puts a row before one that the plan
puts before it, the limit of the statement leaves all rows (a page replaces it) and its
offset, which counts again on every page, drops the first rows of a single page.  Where
two of these hold, the third decides (`plan_order_iff`), as long as no row that ends a
page has a `bool`, at which there is no boundary.

The rows after the last row of a page are then the rest of the listing
(`ahead_next`); one row of the rest that the plan puts earlier is lost.
-/

namespace ProdkitStorage.Database

open ProdkitStorage.Foundation
open ProdkitStorage.Python
open Std (OrientedCmp TransCmp)

variable {Db Env Row Id : Type}

namespace Listing

variable (listing : Listing Db Env Row Id)

/-- The order of the statement never contradicts the plan. -/
def OrderAgrees (db : Db) : Prop :=
  ∀ a ∈ listing.statement.kept db, ∀ b ∈ listing.statement.kept db,
    listing.sort.order a b = .lt → lex listing.statement.orderBy a b ≠ .gt

/-- The limit of the statement leaves all rows after its offset. -/
def LimitKeepsAll (db : Db) : Prop :=
  ∀ count, listing.statement.limit = some count →
    (listing.statement.kept db).length ≤ listing.statement.offset.getD 0 + count

/-- The statement has no offset, or one page shows all rows after it and those it drops come first
in the plan. -/
def OffsetDropsFirst (db : Db) (limit : Nat) : Prop :=
  listing.statement.offset.getD 0 = 0 ∨
    ((listing.statement.kept db).length ≤ listing.statement.offset.getD 0 + limit ∧
      ∀ a ∈ (listing.statement.ordered db).take (listing.statement.offset.getD 0),
        ∀ b ∈ (listing.statement.ordered db).drop (listing.statement.offset.getD 0),
          listing.sort.order a b = .lt)

/-- No row that ends a page has a `bool` among its values, the last page apart. -/
def PageEndsCompare (db : Db) (limit : Nat) : Prop :=
  SliceEnds limit (fun env _ => listing.sort.Comparable env) (listing.shown db none)

/-- Following the cursors from the start returns every row of the statement once, and the rows of
every page in the order of the plan. -/
def Governed [DecidableEq Id] (db : Db) (limit : Int) : Prop :=
  ∃ pages, Follows (fun cursor => listing.page db cursor limit) none pages ∧
    (∀ page ∈ pages, page.items.Pairwise listing.Before) ∧
      (itemsOf pages).Perm (listing.statement.execute db)

variable {listing} {tie : SortField Env Row} {db : Db}

/-! ## The two orders -/

theorem pageOrder_eq (a b : Env) : listing.pageOrder a b =
    (lex listing.statement.orderBy a b).then (listing.sort.order a b) :=
  lex_append ..

theorem transCmp_pageOrder (hown : ∀ cmp ∈ listing.statement.orderBy, TransCmp cmp) :
    TransCmp listing.pageOrder := by
  refine transCmp_lex fun cmp hcmp => ?_
  rcases List.mem_append.mp hcmp with hstatement | hplan
  · exact hown cmp hstatement
  · obtain ⟨term, -, rfl⟩ := List.mem_map.mp hplan
    exact term.transCmp_orderBy

/-- Rows the plan tells apart are told apart by the query. -/
theorem distinct_pageOrder (hdistinct : Distinct listing.sort.order (listing.statement.kept db)) :
    Distinct listing.pageOrder (listing.statement.kept db) := by
  refine List.Pairwise.imp ?_ hdistinct
  intro a b hne heq
  rw [pageOrder_eq, Ordering.then_eq_eq] at heq
  exact hne heq.2

/-- Without a contradiction the query has the order of the plan. -/
theorem OrderAgrees.pageOrder_lt (h : listing.OrderAgrees db) {a b : Env}
    (ha : a ∈ listing.statement.kept db) (hb : b ∈ listing.statement.kept db)
    (hlt : listing.sort.order a b = .lt) : listing.pageOrder a b = .lt := by
  have hne := h a ha b hb hlt
  rw [pageOrder_eq]
  cases hown : lex listing.statement.orderBy a b with
  | lt => rfl
  | eq => exact hlt
  | gt => exact absurd hown hne

/-- A list that is sorted by the query and by the plan leaves no room for a contradiction. -/
theorem orderAgrees_of_sorted (hown : ∀ cmp ∈ listing.statement.orderBy, TransCmp cmp)
    (hdistinct : Distinct listing.sort.order (listing.statement.kept db))
    (hsorted : (listing.ahead db none).Pairwise fun a b => listing.sort.order a b = .lt) :
    listing.OrderAgrees db := by
  have hpage := transCmp_pageOrder hown
  have hplan := listing.sort.transCmp_order
  have hquery : (listing.ahead db none).Pairwise fun a b => listing.pageOrder a b = .lt :=
    sortBy_strict hpage ((distinct_pageOrder hdistinct).sublist List.filter_sublist)
  have hboth := (hsorted.and hquery).imp
    (S := fun a b => listing.sort.order a b = .lt ∧ listing.pageOrder a b = .lt ∨
      listing.sort.order b a = .lt ∧ listing.pageOrder b a = .lt) .inl
  intro a ha b hb hlt hgt
  have hne : a ≠ b := by
    rintro rfl
    have hself : listing.sort.order a a = .eq := Std.ReflCmp.compare_self
    rw [hself] at hlt
    cases hlt
  have hcontra : listing.pageOrder a b = .gt := by
    rw [pageOrder_eq, hgt]
    rfl
  have hsymm : Std.Symm fun a b => listing.sort.order a b = .lt ∧ listing.pageOrder a b = .lt ∨
      listing.sort.order b a = .lt ∧ listing.pageOrder b a = .lt := ⟨fun _ _ h => h.symm⟩
  rcases hboth.forall (mem_ahead.mpr ⟨ha, trivial⟩) (mem_ahead.mpr ⟨hb, trivial⟩) hne with h | h
  · rw [hcontra] at h
    cases h.2
  · rw [OrientedCmp.gt_of_lt h.1] at hlt
    cases hlt

/-! ## The rows after a page -/

/-- The rows after the last row of a page are those that the page leaves. -/
theorem ahead_next (hown : ∀ cmp ∈ listing.statement.orderBy, TransCmp cmp)
    (hdistinct : Distinct listing.sort.order (listing.statement.kept db)) {bound : Option Env}
    {last : Env} {limit : Nat} (hlast : last ∈ listing.ahead db bound)
    (htake : ∀ x ∈ (listing.ahead db bound).take limit, listing.sort.order last x ≠ .lt)
    (hdrop : ∀ x ∈ (listing.ahead db bound).drop limit, listing.sort.order last x = .lt) :
    listing.ahead db (some last) = (listing.ahead db bound).drop limit := by
  have hpage := transCmp_pageOrder hown
  have hplan := listing.sort.transCmp_order
  have hfilter : ∀ p : Env → Bool, sortBy listing.pageOrder ((listing.statement.kept db).filter p) =
      (sortBy listing.pageOrder (listing.statement.kept db)).filter p :=
    sortBy_filter hpage (distinct_pageOrder hdistinct)
  have hbound := (mem_ahead.mp hlast).2
  have hkeep : listing.ahead db (some last) =
      (listing.ahead db bound).filter fun x => IsAfter listing.sort.order (some last) x := by
    rw [ahead, ahead, hfilter, hfilter, List.filter_filter]
    refine List.filter_congr fun x _ => ?_
    rw [Bool.eq_iff_iff, Bool.and_eq_true, decide_eq_true_iff, decide_eq_true_iff]
    exact ⟨fun hx => ⟨hx, hbound.trans hplan hx⟩, fun hx => hx.1⟩
  have hfirst : ((listing.ahead db bound).take limit).filter
      (fun x => IsAfter listing.sort.order (some last) x) = [] :=
    List.filter_eq_nil_iff.mpr fun x hx h => htake x hx (of_decide_eq_true h)
  have hrest : ((listing.ahead db bound).drop limit).filter
      (fun x => IsAfter listing.sort.order (some last) x) = (listing.ahead db bound).drop limit :=
    List.filter_eq_self.mpr fun x hx => decide_eq_true (hdrop x hx)
  have hsplit := congrArg (List.filter fun x => IsAfter listing.sort.order (some last) x)
    (List.take_append_drop limit (listing.ahead db bound))
  rw [List.filter_append, hfirst, hrest, List.nil_append] at hsplit
  rw [hkeep, ← hsplit]

/-- In a listing that is sorted by the plan the rows after the last row of a page are the rest. -/
theorem ahead_next_sorted (hown : ∀ cmp ∈ listing.statement.orderBy, TransCmp cmp)
    (hdistinct : Distinct listing.sort.order (listing.statement.kept db)) {bound : Option Env}
    (hsorted : (listing.ahead db bound).Pairwise fun a b => listing.sort.order a b = .lt)
    {last : Env} {limit : Nat}
    (hlast : ((listing.ahead db bound).take limit).getLast? = some last) :
    listing.ahead db (some last) = (listing.ahead db bound).drop limit := by
  have hplan := listing.sort.transCmp_order
  refine ahead_next hown hdistinct (List.mem_of_mem_take (List.mem_of_getLast? hlast)) ?_ ?_
  · intro x hx hlt
    have hle := le_getLast hplan (hsorted.sublist (List.take_sublist _ _)) hlast hx
    rw [OrientedCmp.gt_of_lt hlt] at hle
    cases hle
  · exact fun x hx => getLast_lt hsorted hlast hx

/-- After a page the offset drops rows again. -/
theorem ahead_next_shown (hown : ∀ cmp ∈ listing.statement.orderBy, TransCmp cmp)
    (hdistinct : Distinct listing.sort.order (listing.statement.kept db)) {bound : Option Env}
    (hsorted : (listing.ahead db bound).Pairwise fun a b => listing.sort.order a b = .lt)
    {last : Env} {limit : Nat}
    (hlast : ((listing.shown db bound).take limit).getLast? = some last) :
    listing.ahead db (some last) =
      (listing.ahead db bound).drop (listing.statement.offset.getD 0 + limit) := by
  refine ahead_next_sorted hown hdistinct hsorted ?_
  rw [shown] at hlast
  rw [List.take_add, List.getLast?_append, hlast]
  rfl

/-! ## Following the cursors -/

/-- Two rows of the statement are in the order of the plan exactly when the row objects are. -/
theorem before_entity_iff {a b : Env} (ha : listing.RoundTrips a) (hb : listing.RoundTrips b) :
    listing.Before (listing.statement.entity a) (listing.statement.entity b) ↔
      listing.sort.order a b = .lt := by
  refine ⟨?_, before_entity ha hb⟩
  rintro ⟨va, vb, hva, hvb, hlt⟩
  obtain rfl := Except.ok.inj (ha.1.symm.trans hva)
  obtain rfl := Except.ok.inj (hb.1.symm.trans hvb)
  rwa [compareCells_evals] at hlt

theorem Admissible.pairwise_before (h : listing.Admissible tie db) {envs : List Env}
    (hkept : ∀ env ∈ envs, env ∈ listing.statement.kept db) :
    (envs.map listing.statement.entity).Pairwise listing.Before ↔
      envs.Pairwise fun a b => listing.sort.order a b = .lt := by
  rw [List.pairwise_map]
  refine List.Pairwise.iff_of_mem fun {a b} ha hb => ?_
  exact before_entity_iff (h.roundTrips a (hkept a ha)) (h.roundTrips b (hkept b hb))

variable [DecidableEq Id] {limit : Nat}

/-- A page that has more leaves rows, and its cursor is the one after its last row. -/
theorem Admissible.of_more (h : listing.Admissible tie db)
    {cursor : Option String} {bound : Option Env} (hcursor : listing.CursorFor cursor bound)
    {page : CursorPage Row} (hfetch : listing.page db cursor limit = .ok page)
    (hmore : page.hasMore = true) :
    limit < (listing.shown db bound).length ∧
      ∃ last token, ((listing.shown db bound).take limit).getLast? = some last ∧
        listing.CursorFor (some token) (some last) ∧
          page = ⟨((listing.shown db bound).take limit).map listing.statement.entity, some token,
            true⟩ := by
  obtain ⟨hlimit, hready⟩ := of_page hfetch hcursor
  rcases Nat.lt_or_ge limit (listing.shown db bound).length with hlonger | hall
  · obtain ⟨last, token, hlast, htoken, hpage⟩ :=
      page_more h .empty hcursor hready hlimit hlonger fun env _ => current_empty env
    exact ⟨hlonger, last, token, hlast, htoken, Except.ok.inj (hfetch.symm.trans hpage)⟩
  · rw [page_last h .empty hcursor hready hlimit hall] at hfetch
    obtain rfl := Except.ok.inj hfetch
    cases hmore

/-- A page that has no more holds the rows there are. -/
theorem Admissible.of_last (h : listing.Admissible tie db) {cursor : Option String}
    {bound : Option Env} (hcursor : listing.CursorFor cursor bound)
    {page : CursorPage Row} (hfetch : listing.page db cursor limit = .ok page)
    (hlast : page.hasMore = false) :
    (listing.shown db bound).length ≤ limit ∧
      page = ⟨(listing.shown db bound).map listing.statement.entity, none, false⟩ := by
  obtain ⟨hlimit, hready⟩ := of_page hfetch hcursor
  rcases Nat.lt_or_ge limit (listing.shown db bound).length with hlonger | hall
  · obtain ⟨last, token, -, -, hpage⟩ :=
      page_more h .empty hcursor hready hlimit hlonger fun env _ => current_empty env
    obtain rfl := Except.ok.inj (hfetch.symm.trans hpage)
    cases hlast
  · have hpage := page_last h .empty hcursor hready hlimit hall
    exact ⟨hall, Except.ok.inj (hfetch.symm.trans hpage)⟩

/-- What follows a cursor comes after its row. -/
theorem Admissible.follows_after (h : listing.Admissible tie db)
    {cursor : Option String} {pages : List (CursorPage Row)}
    (hfollows : Follows (fun cursor => listing.page db cursor limit) cursor pages)
    {bound : Option Env} (hcursor : listing.CursorFor cursor bound) :
    ∀ row ∈ itemsOf pages, ∃ env ∈ listing.statement.kept db,
      IsAfter listing.sort.order bound env ∧ listing.statement.entity env = row := by
  induction hfollows generalizing bound with
  | @last cursor page hfetch hmore =>
      obtain ⟨-, rfl⟩ := h.of_last hcursor hfetch hmore
      intro row hrow
      rw [itemsOf_cons, itemsOf_nil, List.append_nil] at hrow
      obtain ⟨env, henv, rfl⟩ := List.mem_map.mp hrow
      obtain ⟨hkept, hafter⟩ := mem_of_mem_shown henv
      exact ⟨env, hkept, hafter, rfl⟩
  | @next cursor page token pages hfetch hmore hnext hrest ih =>
      obtain ⟨-, last, token', hlast, hcursor', rfl⟩ := h.of_more hcursor hfetch hmore
      obtain rfl := Option.some.inj hnext
      intro row hrow
      rw [itemsOf_cons] at hrow
      rcases List.mem_append.mp hrow with hfirst | hlater
      · obtain ⟨env, henv, rfl⟩ := List.mem_map.mp hfirst
        obtain ⟨hkept, hafter⟩ := mem_of_mem_shown (List.mem_of_mem_take henv)
        exact ⟨env, hkept, hafter, rfl⟩
      · obtain ⟨env, hkept, hafter, hentity⟩ := ih hcursor' row hlater
        have hbound := (mem_of_mem_shown (List.mem_of_mem_take (List.mem_of_getLast? hlast))).2
        exact ⟨env, hkept, hbound.trans listing.sort.transCmp_order hafter, hentity⟩

/-- In a listing that is sorted by the plan what follows a cursor is no more than its first page can
show. -/
theorem Admissible.length_follows (h : listing.Admissible tie db)
    (hown : ∀ cmp ∈ listing.statement.orderBy, TransCmp cmp)
    (hdistinct : Distinct listing.sort.order (listing.statement.kept db))
    {cursor : Option String} {pages : List (CursorPage Row)}
    (hfollows : Follows (fun cursor => listing.page db cursor limit) cursor pages)
    {bound : Option Env} (hcursor : listing.CursorFor cursor bound)
    (hsorted : (listing.ahead db bound).Pairwise fun a b => listing.sort.order a b = .lt) :
    (itemsOf pages).length ≤ (listing.shown db bound).length := by
  induction hfollows generalizing bound with
  | @last cursor page hfetch hmore =>
      obtain ⟨-, rfl⟩ := h.of_last hcursor hfetch hmore
      rw [itemsOf_cons, itemsOf_nil, List.append_nil, List.length_map]
  | @next cursor page token pages hfetch hmore hnext hrest ih =>
      obtain ⟨-, last, token', hlast, hcursor', rfl⟩ := h.of_more hcursor hfetch hmore
      obtain rfl := Option.some.inj hnext
      have hahead := ahead_next_shown hown hdistinct hsorted hlast
      have hrestLength := ih hcursor' (hahead ▸ hsorted.sublist (List.drop_sublist _ _))
      rw [shown, hahead, List.drop_drop, List.length_drop] at hrestLength
      rw [itemsOf_cons, List.length_append, List.length_map, List.length_take, shown,
        List.length_drop]
      omega

/-- If following a cursor returns the rows after it once, page by page in the order of the plan, the
query has the order of the plan on them. -/
theorem Admissible.sorted_of_follows (h : listing.Admissible tie db)
    (hown : ∀ cmp ∈ listing.statement.orderBy, TransCmp cmp)
    (hdistinct : Distinct listing.sort.order (listing.statement.kept db))
    (hoffset : listing.statement.offset.getD 0 = 0) {cursor : Option String}
    {pages : List (CursorPage Row)}
    (hfollows : Follows (fun cursor => listing.page db cursor limit) cursor pages)
    {bound : Option Env} (hcursor : listing.CursorFor cursor bound)
    (hpages : ∀ page ∈ pages, page.items.Pairwise listing.Before)
    (hitems : (itemsOf pages).Perm ((listing.ahead db bound).map listing.statement.entity)) :
    (listing.ahead db bound).Pairwise fun a b => listing.sort.order a b = .lt := by
  have hplan := listing.sort.transCmp_order
  induction hfollows generalizing bound with
  | @last cursor page hfetch hmore =>
      obtain ⟨-, rfl⟩ := h.of_last hcursor hfetch hmore
      have hsorted := hpages _ (List.mem_singleton_self _)
      rw [shown_eq_ahead hoffset] at hsorted
      exact (h.pairwise_before fun env henv => (mem_ahead.mp henv).1).mp hsorted
  | @next cursor page token pages hfetch hmore hnext hrest ih =>
      obtain ⟨-, last, token', hlast, hcursor', hpage⟩ := h.of_more hcursor hfetch hmore
      rw [shown_eq_ahead hoffset] at hlast hpage
      obtain rfl := hpage
      obtain rfl := Option.some.inj hnext
      have hmem : last ∈ listing.ahead db bound :=
        List.mem_of_mem_take (List.mem_of_getLast? hlast)
      have hkept : ∀ env ∈ listing.ahead db bound, env ∈ listing.statement.kept db :=
        fun env henv => (mem_ahead.mp henv).1
      have htake : ((listing.ahead db bound).take limit).Pairwise
          fun a b => listing.sort.order a b = .lt :=
        (h.pairwise_before fun env henv => hkept env (List.mem_of_mem_take henv)).mp
          (hpages _ List.mem_cons_self)
      -- The pages that follow return what this page leaves, so all of it comes after `last`.
      have hleft : (itemsOf pages).Perm
          (((listing.ahead db bound).drop limit).map listing.statement.entity) := by
        rw [itemsOf_cons, ← List.take_append_drop limit (listing.ahead db bound),
          List.map_append, List.take_append_drop] at hitems
        exact (List.perm_append_left_iff _).mp hitems
      have hdrop : ∀ x ∈ (listing.ahead db bound).drop limit,
          listing.sort.order last x = .lt := by
        intro x hx
        obtain ⟨env, henv, hafter, hentity⟩ := h.follows_after hrest hcursor' _
          (hleft.mem_iff.mpr (List.mem_map_of_mem hx))
        have hxkept := hkept x (List.mem_of_mem_drop hx)
        rwa [← h.eq_of_identity henv hxkept (congrArg _ hentity)]
      have hle : ∀ x ∈ (listing.ahead db bound).take limit,
          (listing.sort.order x last).isLE :=
        fun x hx => le_getLast hplan htake hlast hx
      have hnext := ahead_next hown hdistinct hmem
        (fun x hx hlt => by
          have hle := hle x hx
          rw [OrientedCmp.gt_of_lt hlt] at hle
          cases hle) hdrop
      rw [← hnext] at hleft
      have hrestSorted := ih hcursor' (fun page hpage => hpages page (List.mem_cons_of_mem _ hpage))
        hleft
      rw [hnext] at hrestSorted
      rw [← List.take_append_drop limit (listing.ahead db bound)]
      refine List.pairwise_append.mpr ⟨htake, hrestSorted, fun x hx y hy => ?_⟩
      exact TransCmp.lt_of_isLE_of_lt (hle x hx) (hdrop y hy)

/-- When a listing that is sorted by the plan is followed to its end, there is a boundary at every
row that ends a page. -/
theorem Admissible.compare_of_follows (h : listing.Admissible tie db)
    (hown : ∀ cmp ∈ listing.statement.orderBy, TransCmp cmp)
    (hdistinct : Distinct listing.sort.order (listing.statement.kept db))
    (hoffset : listing.statement.offset.getD 0 = 0) {cursor : Option String}
    {pages : List (CursorPage Row)}
    (hfollows : Follows (fun cursor => listing.page db cursor limit) cursor pages)
    {bound : Option Env} (hcursor : listing.CursorFor cursor bound)
    (hsorted : (listing.ahead db bound).Pairwise fun a b => listing.sort.order a b = .lt) :
    SliceEnds limit (fun env _ => listing.sort.Comparable env) (listing.ahead db bound) := by
  induction hfollows generalizing bound with
  | @last cursor page hfetch hmore =>
      obtain ⟨hall, -⟩ := h.of_last hcursor hfetch hmore
      rw [shown_eq_ahead hoffset] at hall
      exact sliceEnds_of_length_le hall
  | @next cursor page token pages hfetch hmore hnext hrest ih =>
      obtain ⟨hlonger, last, token', hlast, hcursor', rfl⟩ := h.of_more hcursor hfetch hmore
      obtain rfl := Option.some.inj hnext
      rw [shown_eq_ahead hoffset] at hlonger hlast
      have hahead := ahead_next_sorted hown hdistinct hsorted hlast
      -- The next page is there, so its boundary is.
      obtain ⟨next, hfetch'⟩ := hrest.fetched
      have hready := (of_page hfetch' hcursor').2
      have hends := ih hcursor' (hahead ▸ hsorted.sublist (List.drop_sublist _ _))
      exact (sliceEnds_iff_drop hlonger hlast).mpr ⟨hready last rfl, hahead ▸ hends⟩

/-- Following a cursor returns the rows after it, when the query has the order of the plan. -/
theorem Admissible.follows_of_sorted (h : listing.Admissible tie db)
    (hown : ∀ cmp ∈ listing.statement.orderBy, TransCmp cmp)
    (hdistinct : Distinct listing.sort.order (listing.statement.kept db))
    (hoffset : listing.statement.offset.getD 0 = 0) (hlimit : 1 ≤ limit ∧ limit ≤ 500)
    {cursor : Option String} {bound : Option Env} (hcursor : listing.CursorFor cursor bound)
    (hready : listing.Ready bound)
    (hsorted : (listing.ahead db bound).Pairwise fun a b => listing.sort.order a b = .lt)
    (hends : SliceEnds limit (fun env _ => listing.sort.Comparable env) (listing.ahead db bound)) :
    ∃ pages, Follows (fun cursor => listing.page db cursor limit) cursor pages ∧
      (∀ page ∈ pages, page.items.Pairwise listing.Before) ∧
        itemsOf pages = (listing.ahead db bound).map listing.statement.entity := by
  induction hlength : (listing.ahead db bound).length using Nat.strong_induction_on
    generalizing cursor bound with
  | h count ih =>
      have hbefore := (h.pairwise_before fun env henv => (mem_ahead.mp henv).1).mpr hsorted
      rw [← shown_eq_ahead hoffset] at hlength hbefore
      rcases Nat.lt_or_ge limit (listing.shown db bound).length with hmore | hall
      · obtain ⟨last, token, hlast, hcursor', hpage⟩ :=
          page_more h .empty hcursor hready hlimit hmore fun env _ => current_empty env
        rw [object_empty] at hpage
        rw [← shown_eq_ahead hoffset] at hends
        obtain ⟨hcompare, hends'⟩ := (sliceEnds_iff_drop hmore hlast).mp hends
        have hnext := ahead_next_shown hown hdistinct hsorted hlast
        rw [hoffset, Nat.zero_add] at hnext
        have hshorter : (listing.ahead db (some last)).length < count := by
          rw [hnext, ← shown_eq_ahead hoffset, List.length_drop]
          omega
        have hsorted' := hsorted.sublist (List.drop_sublist limit _)
        rw [← hnext] at hsorted'
        rw [shown_eq_ahead hoffset, ← hnext] at hends'
        have hready' : listing.Ready (some last) := by
          rintro env ⟨⟩
          exact hcompare
        obtain ⟨pages, hfollows, hpages, hitems⟩ :=
          ih _ hshorter hcursor' hready' hsorted' hends' rfl
        refine ⟨_ :: pages, .next hpage rfl rfl hfollows, ?_, ?_⟩
        · intro page hmem
          rcases List.mem_cons.mp hmem with rfl | hmem
          · exact hbefore.sublist ((List.take_sublist _ _).map _)
          · exact hpages page hmem
        · rw [itemsOf_cons, hitems, hnext, shown_eq_ahead hoffset, ← List.map_append,
            List.take_append_drop]
      · have hpage := page_last h .empty hcursor hready hlimit hall
        rw [object_empty] at hpage
        refine ⟨[_], .last hpage rfl, ?_, ?_⟩
        · intro page hmem
          rw [List.mem_singleton.mp hmem]
          exact hbefore
        · rw [itemsOf_cons, itemsOf_nil, List.append_nil, shown_eq_ahead hoffset]

omit [DecidableEq Id] in
theorem length_ahead_none :
    (listing.ahead db none).length = (listing.statement.kept db).length := by
  rw [ahead, filter_isAfter_none, (sortBy_perm _ _).length_eq]

omit [DecidableEq Id] in
theorem ordered_perm_ahead : (listing.statement.ordered db).Perm (listing.ahead db none) := by
  rw [ahead, filter_isAfter_none]
  exact (sortBy_perm _ _).trans (sortBy_perm _ _).symm

omit [DecidableEq Id] in
/-- The rows of the statement, when its limit leaves all of them. -/
theorem LimitKeepsAll.execute_eq (h : listing.LimitKeepsAll db) :
    listing.statement.execute db =
      ((listing.statement.ordered db).drop (listing.statement.offset.getD 0)).map
        listing.statement.entity := by
  rw [Select.execute, Select.window]
  cases hcount : listing.statement.limit with
  | none => rfl
  | some count =>
      have hordered : (listing.statement.ordered db).length = (listing.statement.kept db).length :=
        (sortBy_perm _ _).length_eq
      have hkeeps := h count hcount
      exact congrArg _ (List.take_of_length_le (by rw [List.length_drop]; omega))

omit [DecidableEq Id] in
/-- The rows of the statement, when its window leaves all of them. -/
theorem LimitKeepsAll.execute_perm (h : listing.LimitKeepsAll db)
    (hoffset : listing.statement.offset.getD 0 = 0) :
    (listing.statement.execute db).Perm
      ((listing.ahead db none).map listing.statement.entity) := by
  rw [h.execute_eq, hoffset, List.drop_zero]
  exact ordered_perm_ahead.map _

omit [DecidableEq Id] in
/-- Without a contradiction the listing is sorted by the plan. -/
theorem OrderAgrees.sorted (h : listing.OrderAgrees db)
    (hown : ∀ cmp ∈ listing.statement.orderBy, TransCmp cmp)
    (hdistinct : Distinct listing.sort.order (listing.statement.kept db)) :
    (listing.ahead db none).Pairwise fun a b => listing.sort.order a b = .lt := by
  have hfound := found_strict listing.sort.transCmp_order hdistinct none
  have hsame : listing.ahead db none =
      found listing.sort.order (listing.statement.kept db) none := by
    refine sortBy_eq (transCmp_pageOrder hown) (sortBy_perm _ _) (hfound.imp_of_mem ?_)
    intro a b ha hb hlt
    exact h.pageOrder_lt (mem_found.mp ha).1 (mem_found.mp hb).1 hlt
  rwa [hsame]

omit [DecidableEq Id] in
/-- The offset drops the rows that come first in the plan exactly when the statement has the rows
that a page can show. -/
theorem drop_perm_shown (hown : ∀ cmp ∈ listing.statement.orderBy, TransCmp cmp)
    (hdistinct : Distinct listing.sort.order (listing.statement.kept db))
    (hagrees : listing.OrderAgrees db) :
    ((listing.statement.ordered db).drop (listing.statement.offset.getD 0)).Perm
        (listing.shown db none) ↔
      ∀ a ∈ (listing.statement.ordered db).take (listing.statement.offset.getD 0),
        ∀ b ∈ (listing.statement.ordered db).drop (listing.statement.offset.getD 0),
          listing.sort.order a b = .lt :=
  drop_perm_iff listing.sort.transCmp_order ordered_perm_ahead (hagrees.sorted hown hdistinct) _

omit [DecidableEq Id] in
/-- The rows of the statement, when its offset drops the first ones and its limit leaves
the rest. -/
theorem OffsetDropsFirst.drop_perm (h : listing.OffsetDropsFirst db limit)
    (hown : ∀ cmp ∈ listing.statement.orderBy, TransCmp cmp)
    (hdistinct : Distinct listing.sort.order (listing.statement.kept db))
    (hagrees : listing.OrderAgrees db) :
    ((listing.statement.ordered db).drop (listing.statement.offset.getD 0)).Perm
      (listing.shown db none) := by
  rcases h with hzero | ⟨-, hfirst⟩
  · rw [shown_eq_ahead hzero, hzero, List.drop_zero]
    exact ordered_perm_ahead
  · exact (drop_perm_shown hown hdistinct hagrees).mpr hfirst

omit [DecidableEq Id] in
theorem Admissible.nodup_ordered (h : listing.Admissible tie db) :
    (listing.statement.ordered db).Nodup := by
  refine (sortBy_perm _ _).nodup_iff.mpr (h.oneRow.imp ?_)
  rintro a _ hne rfl
  exact hne rfl

omit [DecidableEq Id] in
/-- Rows of the statement are told apart by their entities. -/
theorem Admissible.perm_of_entities (h : listing.Admissible tie db) {rows others : List Env}
    (hrows : rows.Nodup) (hrowsKept : ∀ env ∈ rows, env ∈ listing.statement.kept db)
    (hothers : others.Nodup) (hothersKept : ∀ env ∈ others, env ∈ listing.statement.kept db)
    (hperm : (rows.map listing.statement.entity).Perm (others.map listing.statement.entity)) :
    rows.Perm others := by
  refine (List.perm_ext_iff_of_nodup hrows hothers).mpr fun env => ⟨fun henv => ?_, fun henv => ?_⟩
  · obtain ⟨other, hother, hsame⟩ :=
      List.mem_map.mp (hperm.mem_iff.mp (List.mem_map_of_mem henv))
    rwa [← h.eq_of_identity (hothersKept other hother) (hrowsKept env henv) (congrArg _ hsame)]
  · obtain ⟨other, hother, hsame⟩ :=
      List.mem_map.mp (hperm.mem_iff.mpr (List.mem_map_of_mem henv))
    rwa [← h.eq_of_identity (hrowsKept other hother) (hothersKept env henv) (congrArg _ hsame)]

/-- When the offset drops the first rows, following the cursors returns what the first page can
show. -/
theorem Admissible.follows_shown (h : listing.Admissible tie db)
    (hown : ∀ cmp ∈ listing.statement.orderBy, TransCmp cmp)
    (hdistinct : Distinct listing.sort.order (listing.statement.kept db))
    (hlimit : 1 ≤ limit ∧ limit ≤ 500) (hagrees : listing.OrderAgrees db)
    (hoffset : listing.OffsetDropsFirst db limit) (hends : listing.PageEndsCompare db limit) :
    ∃ pages, Follows (fun cursor => listing.page db cursor limit) none pages ∧
      (∀ page ∈ pages, page.items.Pairwise listing.Before) ∧
        itemsOf pages = (listing.shown db none).map listing.statement.entity := by
  have hstart : listing.CursorFor none none := trivial
  have hsorted := hagrees.sorted hown hdistinct
  rcases hoffset with hzero | ⟨hall, -⟩
  · rw [PageEndsCompare, shown_eq_ahead hzero] at hends
    rw [shown_eq_ahead hzero]
    exact h.follows_of_sorted hown hdistinct hzero hlimit hstart ready_none hsorted hends
  · have hshort : (listing.shown db none).length ≤ limit := by
      rw [shown, List.length_drop, length_ahead_none]
      omega
    have hpage := page_last h .empty hstart ready_none hlimit hshort
    refine ⟨[_], .last hpage rfl, ?_, List.append_nil _⟩
    intro page hmem
    rw [List.mem_singleton.mp hmem]
    exact (h.pairwise_before fun env henv => (mem_of_mem_shown henv).1).mpr
      (hsorted.sublist (List.drop_sublist _ _))

/-- When the pages return the rows of the statement, its offset drops the first rows. -/
theorem Admissible.offsetDropsFirst_of_governed (h : listing.Admissible tie db)
    (hown : ∀ cmp ∈ listing.statement.orderBy, TransCmp cmp)
    (hdistinct : Distinct listing.sort.order (listing.statement.kept db))
    (hagrees : listing.OrderAgrees db) (hkeeps : listing.LimitKeepsAll db)
    (hgoverned : listing.Governed db limit) :
    listing.OffsetDropsFirst db limit := by
  obtain ⟨pages, hfollows, -, hitems⟩ := hgoverned
  rw [hkeeps.execute_eq] at hitems
  have hstart : listing.CursorFor none none := trivial
  have hsorted := hagrees.sorted hown hdistinct
  have hshown : (listing.shown db none).length =
      (listing.statement.kept db).length - listing.statement.offset.getD 0 := by
    rw [shown, List.length_drop, length_ahead_none]
  refine or_iff_not_imp_left.mpr fun hoffset => ?_
  cases hfollows with
  | @last _ page hfetch hmore =>
      obtain ⟨hshort, rfl⟩ := h.of_last hstart hfetch hmore
      rw [itemsOf_cons, itemsOf_nil, List.append_nil] at hitems
      refine ⟨by omega, (drop_perm_shown hown hdistinct hagrees).mp ?_⟩
      have hahead := ordered_perm_ahead.nodup_iff.mp h.nodup_ordered
      exact h.perm_of_entities (h.nodup_ordered.sublist (List.drop_sublist _ _))
        (fun env henv => Select.mem_ordered.mp (List.mem_of_mem_drop henv))
        (hahead.sublist (List.drop_sublist _ _)) (fun env henv => (mem_of_mem_shown henv).1)
        hitems.symm
  | @next _ page token rest hfetch hmore hnext hrest =>
      -- The offset counts again from the second page on, so rows are missing.
      exfalso
      obtain ⟨hlonger, last, token', hlast, hcursor', rfl⟩ := h.of_more hstart hfetch hmore
      obtain rfl := Option.some.inj hnext
      have hahead := ahead_next_shown hown hdistinct hsorted hlast
      have hrestLength := h.length_follows hown hdistinct hrest hcursor'
        (hahead ▸ hsorted.sublist (List.drop_sublist _ _))
      have hlength := hitems.length_eq
      rw [shown, hahead, List.drop_drop, List.length_drop, length_ahead_none] at hrestLength
      rw [itemsOf_cons, List.length_append, List.length_map, List.length_take, List.length_map,
        List.length_drop, ordered_perm_ahead.length_eq, length_ahead_none] at hlength
      omega

/-- When the pages can be followed to their end, there is a boundary at every row that ends one. -/
theorem Admissible.compare_of_governed (h : listing.Admissible tie db)
    (hown : ∀ cmp ∈ listing.statement.orderBy, TransCmp cmp)
    (hdistinct : Distinct listing.sort.order (listing.statement.kept db))
    (hagrees : listing.OrderAgrees db) (hoffset : listing.OffsetDropsFirst db limit)
    (hgoverned : listing.Governed db limit) : listing.PageEndsCompare db limit := by
  obtain ⟨pages, hfollows, -, -⟩ := hgoverned
  have hstart : listing.CursorFor none none := trivial
  have hsorted := hagrees.sorted hown hdistinct
  rw [PageEndsCompare]
  rcases hoffset with hzero | ⟨hall, -⟩
  · rw [shown_eq_ahead hzero]
    exact h.compare_of_follows hown hdistinct hzero hfollows hstart hsorted
  · refine sliceEnds_of_length_le ?_
    rw [shown, List.length_drop, length_ahead_none]
    omega

/-- The active events, from a statement with an order of its own. -/
def orderedListing (order : Int → Int → Ordering) : Listing (List Int) Int Int Int :=
  { eventListing with statement := eventStatement.addOrder [order] }

theorem admissible_ordered (order : Int → Int → Ordering) :
    (orderedListing order).Admissible idField [7, 9] :=
  have h : eventListing.Admissible idField [7, 9] := admissible_events (by decide) (by decide)
  { oneRow := h.oneRow, notNull := h.notNull, unique := h.unique, roundTrips := h.roundTrips }

end Listing

end ProdkitStorage.Database
