import ProdkitStorage.Database.KeysetWalk
import ProdkitStorage.Database.LegacyWalk

/-!
# One row more than a page

A page reads one raw row more than it holds and drops repeated entities before it
counts.  When the rows it read are different entities the count says whether there is
more; when an entity repeats among them the count is short, and the page says that
there is nothing more whatever comes behind.  `NoneHidden` is the condition under
which it is right: the rows read are different entities, or behind them there is no
entity that they and the rows returned before do not show.

`lookahead_iff` says this of the sorted, legacy and offset pages, and that following
them reaches every entity exactly when nothing is hidden from the last page.
-/

namespace ProdkitStorage.Database

open ProdkitStorage.Foundation
open ProdkitStorage.Python
open Std (OrientedCmp TransCmp)

variable {Db Env Row Id : Type}

/-! ## The count -/

section Count

variable (orm : Orm Row Id) (limit : Nat) (returned remaining window : List Row)

/-- There is more whenever an entity of the rows that remain was not returned. -/
def LooksAhead (items : List Row) (more : Bool) : Prop :=
  (∃ row ∈ remaining, orm.identity row ∉ (returned ++ items).map orm.identity) → more = true

/-- Nothing is hidden behind the rows a page read. -/
def NoneHidden : Prop :=
  (limit < window.length ∧ (window.map orm.identity).Nodup) ∨
    ∀ row ∈ remaining, orm.identity row ∈ (returned ++ window).map orm.identity

/-- Every entity of the rows was returned. -/
def Reached (all : List Row) : Prop :=
  ∀ row ∈ all, orm.identity row ∈ returned.map orm.identity

variable {orm limit returned remaining window} [DecidableEq Id]

theorem uniqueAfter_sublist {identity : Row → Id} {seen : List Id} {rows : List Row} :
    (uniqueAfter identity seen rows).Sublist rows := by
  induction rows generalizing seen with
  | nil => exact List.Sublist.slnil
  | cons row rows ih =>
      rw [uniqueAfter]
      split
      · exact ih.cons row
      · exact ih.cons_cons row

theorem uniqueAfter_nodup {identity : Row → Id} {seen : List Id} {rows : List Row} :
    (∀ row ∈ uniqueAfter identity seen rows, identity row ∉ seen) ∧
      ((uniqueAfter identity seen rows).map identity).Nodup := by
  induction rows generalizing seen with
  | nil => exact ⟨nofun, List.Pairwise.nil⟩
  | cons row rows ih =>
      rw [uniqueAfter]
      split
      · exact ih
      · rename_i hnew
        obtain ⟨hfresh, hnodup⟩ := @ih (identity row :: seen)
        refine ⟨?_, ?_⟩
        · intro other hother
          rcases List.mem_cons.mp hother with rfl | hother
          · exact hnew
          · exact fun hmem => hfresh other hother (List.mem_cons_of_mem _ hmem)
        · rw [List.map_cons, List.nodup_cons]
          refine ⟨fun hmem => ?_, hnodup⟩
          obtain ⟨other, hother, hsame⟩ := List.mem_map.mp hmem
          exact hfresh other hother (hsame ▸ List.mem_cons_self)

/-- The entities are those of the rows. -/
theorem mem_identity_uniqueScalars {rows : List Row} {id : Id} :
    id ∈ (uniqueScalars orm rows).map orm.identity ↔ id ∈ rows.map orm.identity := by
  constructor
  · intro hmem
    obtain ⟨row, hrow, rfl⟩ := List.mem_map.mp hmem
    exact List.mem_map_of_mem (mem_of_mem_uniqueScalars hrow)
  · intro hmem
    obtain ⟨row, hrow, rfl⟩ := List.mem_map.mp hmem
    have hleft : ∃ kept ∈ uniqueAfter orm.identity [] rows, orm.identity kept = orm.identity row :=
      exists_mem_uniqueAfter hrow List.not_mem_nil
    exact List.mem_map.mpr hleft

/-- Of one row more than the page holds, more than the page holds are left exactly when all of them
are different entities. -/
theorem lt_length_uniqueScalars (hwindow : window.length ≤ limit + 1) :
    limit < (uniqueScalars orm window).length ↔
      limit < window.length ∧ (window.map orm.identity).Nodup := by
  have hsublist : (uniqueScalars orm window).Sublist window := uniqueAfter_sublist
  have hlength := hsublist.length_le
  constructor
  · intro hmore
    have hall : uniqueScalars orm window = window := hsublist.eq_of_length (by omega)
    refine ⟨by omega, ?_⟩
    rw [← hall]
    exact uniqueAfter_nodup.2
  · rintro ⟨hlong, hnodup⟩
    have hpairwise : window.Pairwise fun a b => orm.identity a ≠ orm.identity b :=
      List.pairwise_map.mp hnodup
    rwa [uniqueScalars_eq_self hpairwise]

/-- The page is right about what remains exactly when nothing is hidden. -/
theorem looksAhead_iff (hwindow : window.length ≤ limit + 1) :
    LooksAhead orm returned remaining ((uniqueScalars orm window).take limit)
        (decide (limit < (uniqueScalars orm window).length)) ↔
      NoneHidden orm limit returned remaining window := by
  rcases Nat.lt_or_ge limit (uniqueScalars orm window).length with hmore | hless
  · exact ⟨fun _ => .inl ((lt_length_uniqueScalars hwindow).mp hmore),
      fun _ _ => decide_eq_true hmore⟩
  · have hnot : ¬limit < (uniqueScalars orm window).length := by omega
    have hitems : ∀ row, orm.identity row ∈
        (returned ++ (uniqueScalars orm window).take limit).map orm.identity ↔
          orm.identity row ∈ (returned ++ window).map orm.identity := by
      intro row
      rw [List.take_of_length_le hless, List.map_append, List.map_append, List.mem_append,
        List.mem_append, mem_identity_uniqueScalars]
    constructor
    · intro hright
      refine .inr fun row hrow => ?_
      rw [← hitems]
      by_contra hmissing
      exact hnot (of_decide_eq_true (hright ⟨row, hrow, hmissing⟩))
    · rintro (hfull | hcovered)
      · exact absurd ((lt_length_uniqueScalars hwindow).mpr hfull) hnot
      · rintro ⟨row, hrow, hmissing⟩
        exact absurd ((hitems row).mpr (hcovered row hrow)) hmissing

/-- The last page of a walk. -/
theorem reached_iff_looksAhead {all items : List Row} (hrest : ∀ row ∈ remaining, row ∈ all)
    (hcovered : ∀ row ∈ all, orm.identity row ∈ returned.map orm.identity ∨ row ∈ remaining) :
    Reached orm (returned ++ items) all ↔ LooksAhead orm returned remaining items false := by
  constructor
  · rintro hreached ⟨row, hrow, hmissing⟩
    exact absurd (hreached row (hrest row hrow)) hmissing
  · intro hright row hrow
    by_contra hmissing
    rcases hcovered row hrow with hbefore | hleft
    · rw [List.map_append, List.mem_append, not_or] at hmissing
      exact hmissing.1 hbefore
    · exact Bool.false_ne_true (hright ⟨row, hleft, hmissing⟩)

end Count

/-! ## Pages in an order -/

/-- Pages that read a table in an order, after the row the cursor stands for; rows the order does
not tell apart are one entity. -/
structure ReadsInOrder [DecidableEq Id] (orm : Orm Row Id) (entity : Env → Row)
    (order : Env → Env → Ordering) (table : List Env) (limit : Nat) (fetch : Fetch Row)
    (stands : Option String → Option Env → Prop) : Prop where
  total : TransCmp order
  ties : ∀ a ∈ table, ∀ b ∈ table, order a b = .eq →
    orm.identity (entity a) = orm.identity (entity b)
  start : stands none none
  page : ∀ {cursor bound page}, stands cursor bound → fetch cursor = .ok page →
    let rows := uniqueScalars orm (((found order table bound).take (limit + 1)).map entity)
    page.items = rows.take limit ∧ page.hasMore = decide (limit < rows.length)
  next : ∀ {cursor bound page token}, stands cursor bound → fetch cursor = .ok page →
    page.nextCursor = some token → page.hasMore = true ∧ ∀ env ∈ table,
      page.items.getLast? = some (entity env) → stands (some token) (some env)

section Order

variable [DecidableEq Id] {orm : Orm Row Id} {entity : Env → Row} {order : Env → Env → Ordering}
  {table : List Env} {limit : Nat} {fetch : Fetch Row} {stands : Option String → Option Env → Prop}

/-- A page that has more shows every entity up to its last row, and its cursor stands for this
row. -/
theorem ReadsInOrder.step (h : ReadsInOrder orm entity order table limit fetch stands)
    (hlimit : 1 ≤ limit) {cursor : Option String} {bound : Option Env} {page : CursorPage Row}
    {token : String} (hstands : stands cursor bound) (hpage : fetch cursor = .ok page)
    (hnext : page.nextCursor = some token) :
    ∃ last, stands (some token) (some last) ∧ ∀ env ∈ table, IsAfter order bound env →
      orm.identity (entity env) ∈ page.items.map orm.identity ∨ order last env = .lt := by
  have hcmp := h.total
  obtain ⟨hitems, hmore⟩ := h.page hstands hpage
  obtain ⟨htrue, hcursor⟩ := h.next hstands hpage hnext
  have hread : (((found order table bound).take (limit + 1)).map entity).length ≤ limit + 1 := by
    rw [List.length_map, List.length_take]
    exact Nat.min_le_left _ _
  rw [htrue] at hmore
  obtain ⟨hlong, hnodup⟩ :=
    (lt_length_uniqueScalars hread).mp (of_decide_eq_true hmore.symm)
  rw [uniqueScalars_eq_self (List.pairwise_map.mp hnodup), ← List.map_take, List.take_take,
    Nat.min_eq_left (Nat.le_succ limit)] at hitems
  have hlonger : limit < (found order table bound).length := by
    rw [List.length_map, List.length_take] at hlong
    omega
  obtain ⟨last, hlast⟩ := exists_getLast_take hlimit hlonger
  have hlastTable : last ∈ table :=
    (mem_found.mp (List.mem_of_mem_take (List.mem_of_getLast? hlast))).1
  refine ⟨last, hcursor last hlastTable ?_, fun env henv hafter => ?_⟩
  · rw [hitems, List.getLast?_map, hlast]
    rfl
  · rw [hitems, List.map_map]
    have hfound : env ∈ found order table bound := mem_found.mpr ⟨henv, hafter⟩
    have hsorted : (found order table bound).Pairwise fun a b => (order a b).isLE :=
      sortBy_sorted hcmp _
    rw [← List.take_append_drop limit (found order table bound)] at hfound hsorted
    rcases List.mem_append.mp hfound with hshown | hbehind
    · exact .inl (List.mem_map_of_mem hshown)
    · have hle :=
        (List.pairwise_append.mp hsorted).2.2 last (List.mem_of_getLast? hlast) env hbehind
      cases hcompare : order last env with
      | lt => exact .inr rfl
      | eq =>
          have hsame := h.ties last hlastTable env henv hcompare
          exact .inl (List.mem_map.mpr ⟨last, List.mem_of_getLast? hlast, hsame⟩)
      | gt =>
          rw [hcompare] at hle
          cases hle

/-- Every entity was returned before the page of a walk, or comes after the row its cursor stands
for. -/
theorem ReadsInOrder.covered (h : ReadsInOrder orm entity order table limit fetch stands)
    (hlimit : 1 ≤ limit) {returned : List Row} {cursor : Option String} {page : CursorPage Row}
    (hwalked : Walked fetch returned cursor page) :
    ∃ bound, stands cursor bound ∧ ∀ env ∈ table,
      orm.identity (entity env) ∈ returned.map orm.identity ∨ IsAfter order bound env := by
  induction hwalked with
  | first _ => exact ⟨none, h.start, fun _ _ => .inr trivial⟩
  | next hbefore hnext _ ih =>
      obtain ⟨bound, hstands, hcovered⟩ := ih
      obtain ⟨last, hstands', hstep⟩ := h.step hlimit hstands hbefore.fetched hnext
      refine ⟨some last, hstands', fun env henv => ?_⟩
      rw [List.map_append, List.mem_append]
      rcases hcovered env henv with hreturned | hafter
      · exact .inl (.inl hreturned)
      · rcases hstep env henv hafter with hshown | hlater
        · exact .inl (.inr hshown)
        · exact .inr hlater

/-- The last page of a walk that reads the rows a statement without a window keeps. -/
theorem ReadsInOrder.reached_iff {Db : Type} {statement : Select Db Env Row} {db : Db}
    (h : ReadsInOrder orm statement.entity order (statement.kept db) limit fetch stands)
    (hlimit : 1 ≤ limit) (hplain : statement.offset = none ∧ statement.limit = none)
    {returned remaining : List Row} {cursor : Option String} {page : CursorPage Row}
    (hwalked : Walked fetch returned cursor page)
    (hremaining : ∀ bound, stands cursor bound → ∀ row, row ∈ remaining ↔
      ∃ env ∈ statement.kept db, IsAfter order bound env ∧ statement.entity env = row) :
    Reached orm (returned ++ page.items) (statement.execute db) ↔
      LooksAhead orm returned remaining page.items false := by
  obtain ⟨bound, hcursor, hcovered⟩ := h.covered hlimit hwalked
  refine reached_iff_looksAhead ?_ ?_
  · intro row hrow
    obtain ⟨env, henv, -, rfl⟩ := (hremaining bound hcursor row).mp hrow
    obtain ⟨hsource, hsatisfies⟩ := Select.mem_kept.mp henv
    exact Select.mem_execute_of_unlimited hplain.1 hplain.2 hsource hsatisfies
  · intro row hrow
    obtain ⟨env, hsource, hsatisfies, rfl⟩ := Select.mem_execute hrow
    have henv := Select.mem_kept.mpr ⟨hsource, hsatisfies⟩
    exact (hcovered env henv).imp_right fun hafter =>
      (hremaining bound hcursor _).mpr ⟨env, henv, hafter, rfl⟩

end Order

/-! ## Sorted pages -/

/-- The rows of the statement that a query after a cursor keeps. -/
def rowsLeft (statement query : Select Db Env Row) (db : Db) : List Row :=
  ((statement.window (statement.ordered db)).filter query.satisfies).map statement.entity

theorem mem_rowsLeft {statement query : Select Db Env Row} (hoffset : statement.offset = none)
    (hlimit : statement.limit = none) {db : Db} {row : Row} :
    row ∈ rowsLeft statement query db ↔ ∃ env ∈ statement.kept db,
      query.satisfies env = true ∧ statement.entity env = row := by
  have hwindow : statement.window (statement.ordered db) = statement.ordered db := by
    rw [Select.window, hlimit, hoffset]
    rfl
  simp only [rowsLeft, hwindow, List.mem_map, List.mem_filter, Select.mem_ordered, and_assoc]

theorem mem_rowsLeft_self {statement : Select Db Env Row} (hoffset : statement.offset = none)
    (hlimit : statement.limit = none) {db : Db} {row : Row} :
    row ∈ rowsLeft statement statement db ↔
      ∃ env ∈ statement.kept db, statement.entity env = row := by
  rw [mem_rowsLeft hoffset hlimit]
  exact exists_congr fun env => and_congr_right fun henv =>
    and_iff_right (Select.mem_kept.mp henv).2

theorem mem_rowsLeft_where {statement : Select Db Env Row} (hoffset : statement.offset = none)
    (hlimit : statement.limit = none) {condition : Env → Truth} {db : Db} {row : Row} :
    row ∈ rowsLeft statement (statement.where_ condition) db ↔
      ∃ env ∈ statement.kept db, condition env = .true ∧ statement.entity env = row := by
  rw [mem_rowsLeft hoffset hlimit]
  refine exists_congr fun env => and_congr_right fun henv => and_congr_left fun _ => ?_
  rw [Select.satisfies_where]
  exact and_iff_right (Select.mem_kept.mp henv).2

namespace Listing

/-- The rows of the statement after the cursor. -/
def remaining (listing : Listing Db Env Row Id) (db : Db) (cursor : Option String) : List Row :=
  match afterCursor listing.lib listing.codec listing.sort listing.queryFingerprint
      listing.statement cursor with
  | .ok query => rowsLeft listing.statement query db
  | .error _ => []

/-- A table whose rows may repeat an entity: the statement has no order and window of its own, the
tie-breaker is not null and different for different entities, and the cursors survive. -/
structure Keyed (listing : Listing Db Env Row Id) (tie : SortField Env Row) (db : Db) : Prop where
  plain : listing.Plain
  limit : listing.statement.limit = none
  sorts : ∃ term ∈ listing.sort.terms, term.field = tie
  notNull : ∀ env ∈ listing.statement.kept db, tie.expression.eval env ≠ none
  tells : ∀ a ∈ listing.statement.kept db, ∀ b ∈ listing.statement.kept db, ∀ va vb,
    tie.expression.eval a = some va → tie.expression.eval b = some vb →
      tie.expression.compare va vb = .eq →
        listing.orm.identity (listing.statement.entity a) =
          listing.orm.identity (listing.statement.entity b)
  roundTrips : ∀ env ∈ listing.statement.kept db, listing.RoundTrips env

variable [DecidableEq Id] {listing : Listing Db Env Row Id} {tie : SortField Env Row} {db : Db}
  {limit : Nat}

theorem page_ok {cursor : Option String} {page : CursorPage Row}
    (hpage : listing.page db cursor limit = .ok page) :
    (1 ≤ limit ∧ limit ≤ 500) ∧ (listing.rowsRead db cursor limit).length ≤ limit + 1 ∧
      page.items = (uniqueScalars listing.orm (listing.rowsRead db cursor limit)).take limit ∧
      page.hasMore =
        decide (limit < (uniqueScalars listing.orm (listing.rowsRead db cursor limit)).length) ∧
      ∀ token, page.nextCursor = some token → page.hasMore = true ∧
        ∃ last, page.items.getLast? = some last ∧ cursorAfter listing.lib listing.orm listing.codec
          listing.sort listing.queryFingerprint last = .ok token := by
  obtain ⟨query, hquery, hbuilt⟩ := bind_eq_ok.mp hpage
  obtain ⟨⟨⟩, hvalid, hbounded⟩ := bind_eq_ok.mp hquery
  obtain ⟨bounded, -, hlimited⟩ := bind_eq_ok.mp hbounded
  obtain rfl := Except.ok.inj hlimited
  obtain ⟨hitems, hmore, hnext⟩ := buildPage_ok hbuilt
  rw [Int.toNat_natCast, IdentityMap.map_object_empty] at hitems hmore
  have hread : listing.rowsRead db cursor limit =
      ((listing.sort.apply bounded).withLimit (limit + 1)).execute db := by
    rw [rowsRead, query, hquery]
    rfl
  refine ⟨?_, ?_, hread ▸ hitems, hread ▸ hmore, hnext⟩
  · have hrange := range_of_validateLimit hvalid
    omega
  · rw [hread]
    exact Select.length_execute_withLimit

omit [DecidableEq Id] in
theorem Keyed.mem_remaining (h : listing.Keyed tie db) {cursor : Option String}
    {bound : Option Env} (hcursor : listing.CursorFor cursor bound) (hready : listing.Ready bound)
    {row : Row} : row ∈ listing.remaining db cursor ↔ ∃ env ∈ listing.statement.kept db,
      IsAfter listing.sort.order bound env ∧ listing.statement.entity env = row := by
  cases cursor with
  | none =>
      cases bound with
      | some env => cases hcursor
      | none =>
          refine (mem_rowsLeft_self h.plain.2 h.limit).trans (exists_congr fun env => ?_)
          exact and_congr_right fun _ => (and_iff_right trivial).symm
  | some token =>
      cases bound with
      | none => cases hcursor
      | some r =>
          obtain ⟨condition, hboundary⟩ := SortPlan.boundary_isOk.mpr (hready r rfl)
          have hvalues : cursorValues listing.lib listing.codec listing.sort
              listing.queryFingerprint token = .ok (listing.sort.evals r) := hcursor
          have hafter : afterCursor listing.lib listing.codec listing.sort listing.queryFingerprint
              listing.statement (some token) = .ok (listing.statement.where_ condition) := by
            rw [afterCursor, hvalues, ok_bind, hboundary]
            rfl
          rw [remaining, hafter]
          refine (mem_rowsLeft_where h.plain.2 h.limit).trans (exists_congr fun env => ?_)
          rw [SortPlan.boundary_eq_true hboundary]
          rfl

/-- The pages of the listing read the rows in the order of the plan. -/
theorem Keyed.readsInOrder (h : listing.Keyed tie db) :
    ReadsInOrder listing.orm listing.statement.entity listing.sort.order
      (listing.statement.kept db) limit (fun cursor => listing.page db cursor limit)
      listing.CursorFor where
  total := listing.sort.transCmp_order
  ties a ha b hb heq := by
    obtain ⟨va, hva⟩ := Option.ne_none_iff_exists'.mp (h.notNull a ha)
    obtain ⟨vb, hvb⟩ := Option.ne_none_iff_exists'.mp (h.notNull b hb)
    exact h.tells a ha b hb va vb hva hvb (tie_eq_of_order_eq h.sorts heq hva hvb)
  start := trivial
  page {cursor bound page} hcursor hpage := by
    obtain ⟨-, -, hitems, hmore, -⟩ := page_ok hpage
    obtain ⟨hlimit, hready⟩ := of_page hpage hcursor
    have hoffset : listing.statement.offset.getD 0 = 0 := by rw [h.plain.2, Option.getD_none]
    have hread := rowsRead_shown db hcursor hready hlimit
    rw [shown_eq_ahead hoffset, ahead_of_plain h.plain] at hread
    exact ⟨hread ▸ hitems, hread ▸ hmore⟩
  next {cursor bound page token} _ hpage hnext := by
    obtain ⟨-, -, -, -, hcursor⟩ := page_ok hpage
    obtain ⟨hmore, last, hlast, htoken⟩ := hcursor token hnext
    refine ⟨hmore, fun env henv hentity => ?_⟩
    obtain rfl := Option.some.inj (hlast.symm.trans hentity)
    obtain ⟨hvalues, token', hencode, hstands⟩ := h.roundTrips env henv
    have hsame : cursorAfter listing.lib listing.orm listing.codec listing.sort
        listing.queryFingerprint (listing.statement.entity env) = .ok token' := by
      rw [cursorAfter, hvalues]
      exact hencode
    obtain rfl := Except.ok.inj (htoken.symm.trans hsame)
    exact hstands

end Listing

/-! ## Legacy pages -/

namespace LegacyListing

/-- The rows of the statement after the cursor. -/
def remaining (listing : LegacyListing Db Env Row Id) (db : Db) (cursor : Option String) :
    List Row :=
  match afterLegacyCursor listing.lib listing.codec listing.orderColumn listing.idColumn
      listing.direction listing.statement cursor with
  | .ok query => rowsLeft listing.statement query db
  | .error _ => []

/-- The rows a page reads. -/
def rowsRead (listing : LegacyListing Db Env Row Id) (db : Db) (cursor : Option String)
    (limit : Int) : List Row :=
  match prepareLegacyQuery listing.lib listing.codec listing.orderColumn listing.idColumn
      listing.direction listing.statement cursor limit with
  | .ok query => query.execute db
  | .error _ => []

/-- A table whose rows may repeat an entity: nothing is NULL, both values of a cursor survive, and
the id column is different for different entities. -/
structure Keyed (listing : LegacyListing Db Env Row Id) (db : Db) : Prop extends
    listing.Mapped db where
  orderNotNull : ∀ env ∈ listing.statement.kept db, listing.orderColumn.eval env ≠ none
  orderSurvives : ∀ env ∈ listing.statement.kept db,
    roundTrips listing.orderColumn.type (listing.orderColumn.eval env) = true
  idSurvives : ∀ env ∈ listing.statement.kept db,
    roundTrips listing.idColumn.type (listing.idColumn.eval env) = true
  tells : ∀ a ∈ listing.statement.kept db, ∀ b ∈ listing.statement.kept db, ∀ va vb,
    listing.idColumn.eval a = some va → listing.idColumn.eval b = some vb →
      listing.idColumn.compare va vb = .eq →
        listing.orm.identity (listing.statement.entity a) =
          listing.orm.identity (listing.statement.entity b)

/-- The cursor is that of a row of the statement. -/
def CursorFor (listing : LegacyListing Db Env Row Id) (db : Db) :
    Option String → Option Env → Prop
  | none, none => True
  | some token, some r => r ∈ listing.statement.kept db ∧ listing.after token =
      .ok (listing.behind (listing.orderColumn.eval r) (listing.idColumn.eval r))
  | _, _ => False

variable {listing : LegacyListing Db Env Row Id} {db : Db} {limit : Nat}

/-- The row comparison with a row is the order. -/
theorem Keyed.boundary (h : listing.Keyed db) {r x : Env} (hr : r ∈ listing.statement.kept db)
    (hx : x ∈ listing.statement.kept db) :
    legacyBoundary listing.orderColumn listing.idColumn listing.direction
        (listing.orderColumn.eval r) (listing.idColumn.eval r) x = .true ↔
      listing.order r x = .lt := by
  obtain ⟨a, ha⟩ := Option.ne_none_iff_exists'.mp (h.orderNotNull r hr)
  obtain ⟨b, hb⟩ := Option.ne_none_iff_exists'.mp (h.orderNotNull x hx)
  obtain ⟨c, hc⟩ := Option.ne_none_iff_exists'.mp (h.idNotNull r hr)
  obtain ⟨d, hd⟩ := Option.ne_none_iff_exists'.mp (h.idNotNull x hx)
  rw [ha, hc]
  exact legacyBoundary_eq_true ha hb hc hd

theorem Keyed.kept_behind (h : listing.Keyed db) {r : Env} (hr : r ∈ listing.statement.kept db) :
    (listing.behind (listing.orderColumn.eval r) (listing.idColumn.eval r)).kept db =
      (listing.statement.kept db).filter fun x => IsAfter listing.order (some r) x := by
  rw [behind, Select.kept_where]
  refine List.filter_congr fun x hx => ?_
  rw [Bool.eq_iff_iff, beq_iff_eq, decide_eq_true_iff]
  exact h.boundary hr hx

theorem Keyed.finds (h : listing.Keyed db) {cursor : Option String} {bound : Option Env}
    (hcursor : listing.CursorFor db cursor bound) :
    listing.Finds db cursor (found listing.order (listing.statement.kept db) bound) := by
  cases cursor with
  | none =>
      cases bound with
      | some r => cases hcursor
      | none =>
          refine ⟨listing.statement, rfl, h.orderBy, h.offset, rfl, ?_⟩
          rw [found, filter_isAfter_none]
  | some token =>
      cases bound with
      | none => cases hcursor
      | some r =>
          obtain ⟨hr, hafter⟩ := hcursor
          refine ⟨_, hafter, h.orderBy, h.offset, rfl, ?_⟩
          rw [h.kept_behind hr]
          rfl

theorem Keyed.mem_remaining (h : listing.Keyed db) {cursor : Option String} {bound : Option Env}
    (hcursor : listing.CursorFor db cursor bound) {row : Row} :
    row ∈ listing.remaining db cursor ↔ ∃ env ∈ listing.statement.kept db,
      IsAfter listing.order bound env ∧ listing.statement.entity env = row := by
  cases cursor with
  | none =>
      cases bound with
      | some r => cases hcursor
      | none =>
          refine (mem_rowsLeft_self h.offset h.limit).trans (exists_congr fun env => ?_)
          exact and_congr_right fun _ => (and_iff_right trivial).symm
  | some token =>
      cases bound with
      | none => cases hcursor
      | some r =>
          obtain ⟨hr, hafter⟩ := hcursor
          rw [after] at hafter
          rw [remaining, hafter]
          refine (mem_rowsLeft_where h.offset h.limit).trans (exists_congr fun env => ?_)
          exact and_congr_right fun henv => and_congr_left fun _ => h.boundary hr henv

variable [DecidableEq Id]

theorem fetch_ok {cursor : Option String} {page : CursorPage Row}
    (hpage : listing.fetch db limit cursor = .ok page) :
    (1 ≤ limit ∧ limit ≤ 500) ∧ (listing.rowsRead db cursor limit).length ≤ limit + 1 ∧
      page.items = (uniqueScalars listing.orm (listing.rowsRead db cursor limit)).take limit ∧
      page.hasMore =
        decide (limit < (uniqueScalars listing.orm (listing.rowsRead db cursor limit)).length) ∧
      ∀ token, page.nextCursor = some token → page.hasMore = true ∧
        ∃ last, page.items.getLast? = some last ∧ legacyCursorAfter listing.lib listing.orm
          listing.codec listing.orderColumn listing.idColumn last = .ok token := by
  obtain ⟨query, hquery, hbuilt⟩ := bind_eq_ok.mp hpage
  obtain ⟨⟨⟩, hvalid, hbounded⟩ := bind_eq_ok.mp hquery
  obtain ⟨bounded, -, hlimited⟩ := bind_eq_ok.mp hbounded
  obtain rfl := Except.ok.inj hlimited
  obtain ⟨hitems, hmore, hnext⟩ := buildPage_ok hbuilt
  rw [Int.toNat_natCast] at hitems hmore
  have hread : listing.rowsRead db cursor limit =
      ((bounded.addOrder [legacyOrder listing.orderColumn listing.direction,
        legacyOrder listing.idColumn listing.direction]).withLimit (limit + 1)).execute db := by
    rw [rowsRead, hquery]
    rfl
  refine ⟨?_, ?_, hread ▸ hitems, hread ▸ hmore, hnext⟩
  · have hrange := range_of_validateLimit hvalid
    omega
  · rw [hread]
    exact Select.length_execute_withLimit

/-- The pages of the listing read the rows in the order of the query. -/
theorem Keyed.readsInOrder (h : listing.Keyed db) :
    ReadsInOrder listing.orm listing.statement.entity listing.order (listing.statement.kept db)
      limit (listing.fetch db limit) (listing.CursorFor db) where
  total := transCmp_order
  ties a ha b hb heq := by
    obtain ⟨va, hva⟩ := Option.ne_none_iff_exists'.mp (h.idNotNull a ha)
    obtain ⟨vb, hvb⟩ := Option.ne_none_iff_exists'.mp (h.idNotNull b hb)
    exact h.tells a ha b hb va vb hva hvb (id_eq_of_order_eq heq hva hvb)
  start := trivial
  page {cursor bound page} hcursor hpage := by
    obtain ⟨hlimit, -, hitems, hmore, -⟩ := fetch_ok hpage
    obtain ⟨query, hquery, hexecute⟩ := (h.finds hcursor).execute hlimit
    have hread : listing.rowsRead db cursor limit =
        ((found listing.order (listing.statement.kept db) bound).take (limit + 1)).map
          listing.statement.entity := by
      rw [rowsRead, hquery]
      exact hexecute
    exact ⟨hread ▸ hitems, hread ▸ hmore⟩
  next {cursor bound page token} _ hpage hnext := by
    obtain ⟨-, -, -, -, hcursor⟩ := fetch_ok hpage
    obtain ⟨hmore, last, hlast, htoken⟩ := hcursor token hnext
    refine ⟨hmore, fun r hr hentity => ⟨hr, ?_⟩⟩
    obtain rfl := Option.some.inj (hlast.symm.trans hentity)
    obtain ⟨token', htoken', hafter⟩ := h.cursorAfter_readable hr
      (readable_of_roundTrips (h.orderSurvives r hr)) (readable_of_roundTrips (h.idSurvives r hr))
    obtain rfl := Except.ok.inj (htoken.symm.trans htoken')
    rwa [readCell, if_pos (h.orderSurvives r hr), readCell, if_pos (h.idSurvives r hr)] at hafter

end LegacyListing

/-! ## Offset pages -/

section Offset

variable [DecidableEq Id] {orm : Orm Row Id} {statement : Select Db Env Row} {db : Db}
  {limit : Nat} {countStatement : Option (Db → Option Int)}

/-- The rows of the statement after the pages before. -/
def offsetRemaining (statement : Select Db Env Row) (db : Db) (page : Int) (limit : Nat) :
    List Row :=
  (statement.execute db).drop ((page - 1) * limit).toNat

/-- The rows an offset page reads. -/
def offsetRowsRead (statement : Select Db Env Row) (db : Db) (page : Int) (limit : Nat) :
    List Row :=
  (offsetQuery statement page limit false).execute db

/-- A page of a client that asks for one page number after the other while there is a next page,
after the rows of the pages before. -/
inductive Turned (fetch : Int → Except PyError (OffsetPage Row)) :
    Nat → List Row → OffsetPage Row → Prop where
  | first {page : OffsetPage Row} : fetch 1 = .ok page → Turned fetch 0 [] page
  | next {number : Nat} {returned : List Row} {before page : OffsetPage Row} :
      Turned fetch number returned before → before.hasNextPage = true →
      fetch (number + 1 + 1 : Nat) = .ok page →
      Turned fetch (number + 1) (returned ++ before.items) page

theorem paginateOffsetSync_ok {number : Int} {page : OffsetPage Row}
    (hpage : paginateOffsetSync orm statement db number limit false countStatement = .ok page) :
    (offsetRowsRead statement db number limit).length ≤ limit + 1 ∧
      page.items = (uniqueScalars orm (offsetRowsRead statement db number limit)).take limit ∧
      page.hasNextPage =
        decide (limit < (uniqueScalars orm (offsetRowsRead statement db number limit)).length) := by
  obtain ⟨-, -, hbuilt⟩ := bind_eq_ok.mp hpage
  obtain rfl := Except.ok.inj hbuilt
  refine ⟨?_, by rw [← Int.toNat_natCast limit]; rfl, by rw [← Int.toNat_natCast limit]; rfl⟩
  have hcount : ((limit : Int) + 1).toNat = limit + 1 := by omega
  rw [offsetRowsRead, offsetQuery, Select.execute, List.length_map, Select.window]
  simp only [Select.withLimit, Bool.false_eq_true, if_false, hcount]
  exact List.length_take_le _ _

/-- An offset page reads the ordered rows from its start. -/
theorem offsetRowsRead_eq (number : Nat) :
    offsetRowsRead statement db (number + 1 : Nat) limit =
      ((((statement.ordered db).map statement.entity).drop (number * limit)).take (limit + 1)) := by
  have hstart :
      (((number + 1 : Nat) : Int) - 1) * (limit : Int) = ((number * limit : Nat) : Int) := by
    push_cast
    rw [Int.add_sub_cancel]
  have hcount : ((limit : Int) + 1).toNat = limit + 1 := by omega
  rw [offsetRowsRead, offsetQuery, Select.execute, Select.window, hstart]
  simp only [Select.withLimit, Select.withOffset, Bool.false_eq_true, if_false, hcount,
    Int.toNat_natCast, Option.getD_some, List.map_take, List.map_drop]
  rfl

/-- Every entity up to the start of the page was returned before. -/
theorem Turned.covered {number : Nat} {returned : List Row} {page : OffsetPage Row}
    (hturned : Turned (fun number =>
      paginateOffsetSync orm statement db number limit false countStatement) number returned page) :
    paginateOffsetSync orm statement db (number + 1 : Nat) limit false countStatement = .ok page ∧
      ∀ row ∈ ((statement.ordered db).map statement.entity).take (number * limit),
        orm.identity row ∈ returned.map orm.identity := by
  induction hturned with
  | first hfetch =>
      refine ⟨hfetch, fun row hrow => ?_⟩
      rw [Nat.zero_mul, List.take_zero] at hrow
      cases hrow
  | @next number returned before page _ hmore hfetch ih =>
      obtain ⟨hbefore, hcovered⟩ := ih
      refine ⟨hfetch, fun row hrow => ?_⟩
      obtain ⟨hread, hitems, hcount⟩ := paginateOffsetSync_ok hbefore
      rw [hmore] at hcount
      obtain ⟨-, hnodup⟩ := (lt_length_uniqueScalars hread).mp (of_decide_eq_true hcount.symm)
      rw [uniqueScalars_eq_self (List.pairwise_map.mp hnodup), offsetRowsRead_eq, List.take_take,
        Nat.min_eq_left (Nat.le_succ limit)] at hitems
      rw [Nat.succ_mul, List.take_add] at hrow
      rw [List.map_append, List.mem_append, hitems]
      rcases List.mem_append.mp hrow with hold | hnew
      · exact .inl (hcovered row hold)
      · exact .inr (List.mem_map_of_mem hnew)

omit [DecidableEq Id] in
/-- Of the rows of the statement those that are not left were returned before. -/
theorem offsetRemaining_covered (hoffset : statement.offset.getD 0 = 0) {number : Nat}
    {returned : List Row}
    (hcovered : ∀ row ∈ ((statement.ordered db).map statement.entity).take (number * limit),
      orm.identity row ∈ returned.map orm.identity) :
    ∀ row ∈ statement.execute db, orm.identity row ∈ returned.map orm.identity ∨
      row ∈ offsetRemaining statement db (number + 1 : Nat) limit := by
  intro row hrow
  have hstart : ((((number + 1 : Nat) : Int) - 1) * (limit : Int)).toNat = number * limit := by
    push_cast
    rw [Int.add_sub_cancel, ← Int.natCast_mul, Int.toNat_natCast]
  rw [← List.take_append_drop (number * limit) (statement.execute db)] at hrow
  rcases List.mem_append.mp hrow with hpast | hleft
  · refine .inl (hcovered row ?_)
    rw [Select.execute, Select.window, hoffset, List.drop_zero] at hpast
    cases hlimit : statement.limit with
    | none =>
        rw [hlimit] at hpast
        exact hpast
    | some count =>
        rw [hlimit] at hpast
        rw [List.map_take, List.take_take, Nat.min_comm, ← List.take_take] at hpast
        exact List.mem_of_mem_take hpast
  · rw [offsetRemaining, hstart]
    exact .inr hleft

end Offset

/-! ## Whether nothing is hidden -/

section Main

variable [DecidableEq Id]

theorem Listing.Keyed.reached_iff {listing : Listing Db Env Row Id} {tie : SortField Env Row}
    {db : Db} (h : listing.Keyed tie db) {limit : Nat} {returned : List Row}
    {cursor : Option String} {page : CursorPage Row}
    (hwalked : Walked (fun cursor => listing.page db cursor limit) returned cursor page) :
    Reached listing.orm (returned ++ page.items) (listing.statement.execute db) ↔
      LooksAhead listing.orm returned (listing.remaining db cursor) page.items false := by
  have hlimit := (Listing.page_ok hwalked.fetched).1.1
  exact h.readsInOrder.reached_iff hlimit ⟨h.plain.2, h.limit⟩ hwalked fun _ hcursor _ =>
    h.mem_remaining hcursor (Listing.of_page hwalked.fetched hcursor).2

theorem LegacyListing.Keyed.reached_iff {listing : LegacyListing Db Env Row Id} {db : Db}
    (h : listing.Keyed db) {limit : Nat} {returned : List Row} {cursor : Option String}
    {page : CursorPage Row} (hwalked : Walked (listing.fetch db limit) returned cursor page) :
    Reached listing.orm (returned ++ page.items) (listing.statement.execute db) ↔
      LooksAhead listing.orm returned (listing.remaining db cursor) page.items false := by
  have hlimit := (LegacyListing.fetch_ok hwalked.fetched).1.1
  exact h.readsInOrder.reached_iff hlimit ⟨h.offset, h.limit⟩ hwalked fun _ hcursor _ =>
    h.mem_remaining hcursor

/-- The page is right about the rows after its cursor. -/
def Listing.LooksAheadAt (listing : Listing Db Env Row Id) (db : Db) (returned : List Row)
    (cursor : Option String) (page : CursorPage Row) : Prop :=
  LooksAhead listing.orm returned (listing.remaining db cursor) page.items page.hasMore

/-- Nothing is hidden behind the rows the page reads. -/
def Listing.NoneHiddenAt (listing : Listing Db Env Row Id) (db : Db) (limit : Nat)
    (returned : List Row) (cursor : Option String) : Prop :=
  NoneHidden listing.orm limit returned (listing.remaining db cursor)
    (listing.rowsRead db cursor limit)

/-- The page is right about the rows after its cursor. -/
def LegacyListing.LooksAheadAt (listing : LegacyListing Db Env Row Id) (db : Db)
    (returned : List Row) (cursor : Option String) (page : CursorPage Row) : Prop :=
  LooksAhead listing.orm returned (listing.remaining db cursor) page.items page.hasMore

/-- Nothing is hidden behind the rows the page reads. -/
def LegacyListing.NoneHiddenAt (listing : LegacyListing Db Env Row Id) (db : Db) (limit : Nat)
    (returned : List Row) (cursor : Option String) : Prop :=
  NoneHidden listing.orm limit returned (listing.remaining db cursor)
    (listing.rowsRead db cursor limit)

/-- A page says that there is more whenever an entity remains, and a walk that ends with it has
reached every entity, exactly when nothing is hidden behind the rows the page read. -/
theorem lookahead_iff :
    (∀ (listing : Listing Db Env Row Id) (db : Db) (limit : Nat) (returned : List Row)
        (cursor : Option String) (page : CursorPage Row), listing.page db cursor limit = .ok page →
      (listing.LooksAheadAt db returned cursor page ↔
        listing.NoneHiddenAt db limit returned cursor) ∧
      ∀ tie, listing.Keyed tie db →
        Walked (fun cursor => listing.page db cursor limit) returned cursor page →
        page.hasMore = false →
          (Reached listing.orm (returned ++ page.items) (listing.statement.execute db) ↔
            listing.NoneHiddenAt db limit returned cursor)) ∧
    (∀ (listing : LegacyListing Db Env Row Id) (db : Db) (limit : Nat) (returned : List Row)
        (cursor : Option String) (page : CursorPage Row),
        listing.fetch db limit cursor = .ok page →
      (listing.LooksAheadAt db returned cursor page ↔
        listing.NoneHiddenAt db limit returned cursor) ∧
      (listing.Keyed db → Walked (listing.fetch db limit) returned cursor page →
        page.hasMore = false →
          (Reached listing.orm (returned ++ page.items) (listing.statement.execute db) ↔
            listing.NoneHiddenAt db limit returned cursor))) ∧
    ∀ (orm : Orm Row Id) (statement : Select Db Env Row) (db : Db) (number : Int) (limit : Nat)
        (countStatement : Option (Db → Option Int)) (returned : List Row) (page : OffsetPage Row),
        paginateOffsetSync orm statement db number limit false countStatement = .ok page →
      (LooksAhead orm returned (offsetRemaining statement db number limit) page.items
          page.hasNextPage ↔
        NoneHidden orm limit returned (offsetRemaining statement db number limit)
          (offsetRowsRead statement db number limit)) ∧
      ∀ before : Nat, number = (before + 1 : Nat) → statement.offset.getD 0 = 0 →
        Turned (fun number =>
          paginateOffsetSync orm statement db number limit false countStatement) before returned
            page →
        page.hasNextPage = false →
          (Reached orm (returned ++ page.items) (statement.execute db) ↔
            NoneHidden orm limit returned (offsetRemaining statement db number limit)
              (offsetRowsRead statement db number limit)) := by
  refine ⟨?_, ?_, ?_⟩
  · intro listing db limit returned cursor page hpage
    obtain ⟨-, hread, hitems, hmore, -⟩ := Listing.page_ok hpage
    have hright : listing.LooksAheadAt db returned cursor page ↔
        listing.NoneHiddenAt db limit returned cursor := by
      rw [Listing.LooksAheadAt, hitems, hmore]
      exact looksAhead_iff hread
    refine ⟨hright, fun tie hkeyed hwalked hlast => ?_⟩
    rw [hkeyed.reached_iff hwalked, ← hright, Listing.LooksAheadAt, hlast]
  · intro listing db limit returned cursor page hpage
    obtain ⟨-, hread, hitems, hmore, -⟩ := LegacyListing.fetch_ok hpage
    have hright : listing.LooksAheadAt db returned cursor page ↔
        listing.NoneHiddenAt db limit returned cursor := by
      rw [LegacyListing.LooksAheadAt, hitems, hmore]
      exact looksAhead_iff hread
    refine ⟨hright, fun hkeyed hwalked hlast => ?_⟩
    rw [hkeyed.reached_iff hwalked, ← hright, LegacyListing.LooksAheadAt, hlast]
  · intro orm statement db number limit countStatement returned page hpage
    obtain ⟨hread, hitems, hmore⟩ := paginateOffsetSync_ok hpage
    have hright : LooksAhead orm returned (offsetRemaining statement db number limit) page.items
        page.hasNextPage ↔ NoneHidden orm limit returned (offsetRemaining statement db number limit)
          (offsetRowsRead statement db number limit) := by
      rw [hitems, hmore]
      exact looksAhead_iff hread
    refine ⟨hright, fun before hnumber hoffset hturned hlast => ?_⟩
    obtain ⟨-, hcovered⟩ := hturned.covered
    rw [← hright, hlast, hnumber]
    exact reached_iff_looksAhead (fun row hrow => List.mem_of_mem_drop hrow)
      (offsetRemaining_covered hoffset hcovered)

end Main

/-! ## Events joined with their tags -/

/-- The id of the event of a pair of an event and a tag. -/
def taggedField : SortField (Int × Int) Int where
  name := "id"
  expression :=
    { key := some "id"
      type := .bigInteger
      nullable := false
      primaryKey := true
      eval := fun pair => some (.int pair.1)
      compare := intColumn.compare
      compare_trans := intColumn.compare_trans }
  accessor := some (.callable fun id => .ok (some (.int id)))
  defaultNulls := .last
  nullable := false
  unique := true
  name_public := idField.name_public

/-- `select(Event).join(Tag)`, by id. -/
def taggedListing : Listing (List (Int × Int)) (Int × Int) Int Int where
  lib := eventLibrary
  orm := { getattr := fun id _ => .ok (some (.int id)), identity := id }
  codec := sampleCodec
  sort := ⟨[⟨taggedField, .asc, .last⟩], eventFingerprint⟩
  queryFingerprint := some "active"
  statement := { source := id, entity := Prod.fst }

theorem order_tagged (a b : Int × Int) : taggedListing.sort.order a b = compare a.1 b.1 := by
  cases h : compare a.1 b.1 <;>
    simp [SortPlan.order, taggedListing, ResolvedSortTerm.orderBy, ResolvedSortTerm.compareCells,
      placeNulls, taggedField, intColumn, compareOn, h]

theorem kept_tagged (db : List (Int × Int)) : taggedListing.statement.kept db = db :=
  List.filter_eq_self.mpr fun _ _ => rfl

/-- The first page of pairs that are sorted. -/
theorem page_tagged {db : List (Int × Int)} (hdb : db.Pairwise fun a b => a.1 ≤ b.1)
    (hfew : (uniqueScalars taggedListing.orm ((db.take 3).map Prod.fst)).length ≤ 2) :
    taggedListing.rowsRead db none 2 = (db.take 3).map Prod.fst ∧
      taggedListing.page db none 2 =
        .ok ⟨uniqueScalars taggedListing.orm ((db.take 3).map Prod.fst), none, false⟩ := by
  have hsorted : sortBy taggedListing.sort.order db = db := by
    refine List.mergeSort_of_pairwise (hdb.imp fun {a b} hle => ?_)
    rw [order_tagged]
    exact Int.isLE_compare.mpr hle
  have hahead : taggedListing.ahead db none = db := by
    rw [Listing.ahead_of_plain ⟨rfl, rfl⟩, found, kept_tagged, filter_isAfter_none, hsorted]
  have hoffset : taggedListing.statement.offset.getD 0 = 0 := rfl
  have hstart : taggedListing.CursorFor none none := trivial
  have hlimit : (1 : Int) ≤ 2 ∧ (2 : Int) ≤ 500 := by decide
  obtain ⟨query, hquery, hentity, hwindow⟩ :=
    Listing.query_shown hstart Listing.ready_none hlimit
  have hread : query.execute db = (db.take 3).map Prod.fst := by
    rw [Select.execute, hwindow, hentity, Listing.shown_eq_ahead hoffset, hahead]
    rfl
  have hmore : ¬(2 : Int).toNat <
      (uniqueScalars taggedListing.orm ((db.take 3).map Prod.fst)).length := Nat.not_lt.mpr hfew
  constructor
  · rw [Listing.rowsRead, hquery]
    exact hread
  · rw [Listing.query] at hquery
    rw [Listing.page, paginateSync, hquery, ok_bind, IdentityMap.map_object_empty, hread]
    dsimp only
    have hitems : (uniqueScalars taggedListing.orm ((db.take 3).map Prod.fst)).take
        (2 : Int).toNat = uniqueScalars taggedListing.orm ((db.take 3).map Prod.fst) :=
      List.take_of_length_le hfew
    rw [buildSortedPage, buildPage, decide_eq_false hmore, hitems]

/-- An event with three tags fills the rows of a page of two, and the event behind it is never
shown. -/
theorem repeated_event_hides_next :
    ∃ page, taggedListing.page [(7, 1), (7, 2), (7, 3), (9, 4)] none 2 = .ok page ∧
      page.items = [7] ∧
        ¬taggedListing.LooksAheadAt [(7, 1), (7, 2), (7, 3), (9, 4)] [] none page := by
  obtain ⟨-, hpage⟩ := @page_tagged [(7, 1), (7, 2), (7, 3), (9, 4)] (by decide) (by decide)
  refine ⟨_, hpage, rfl, fun hright => ?_⟩
  have hleft : (9 : Int) ∈ taggedListing.remaining [(7, 1), (7, 2), (7, 3), (9, 4)] none :=
    (mem_rowsLeft rfl rfl).mpr ⟨(9, 4), by rw [kept_tagged]; decide, rfl, rfl⟩
  have hmore := hright ⟨9, hleft, by decide⟩
  cases hmore

theorem roundTrips_tagged {pair : Int × Int} (h : pair.1 = 7 ∨ pair.1 = 9) :
    taggedListing.RoundTrips pair := by
  obtain ⟨token, hencode, hdecode⟩ := Listing.cursor_event h
  refine ⟨rfl, token, hencode, ?_⟩
  simp only [Listing.IsCursor, cursorValues, taggedListing, hdecode]
  rfl

theorem keyed_tagged {db : List (Int × Int)} (hids : ∀ pair ∈ db, pair.1 = 7 ∨ pair.1 = 9) :
    taggedListing.Keyed taggedField db where
  plain := ⟨rfl, rfl⟩
  limit := rfl
  sorts := ⟨_, List.mem_singleton_self _, rfl⟩
  notNull := fun _ _ h => Option.some_ne_none _ h
  tells := by
    intro a _ b _ va vb hva hvb heq
    obtain rfl := Option.some.inj hva
    obtain rfl := Option.some.inj hvb
    have hcompare : compare a.1 b.1 = .eq := heq
    exact compare_eq_iff_eq.mp hcompare
  roundTrips := by
    rw [kept_tagged]
    exact fun pair hpair => roundTrips_tagged (hids pair hpair)

/-- An event with two tags leaves room for the event behind it. -/
theorem lookahead_iff_tagged :
    ∃ page, taggedListing.page [(7, 1), (7, 2), (9, 4)] none 2 = .ok page ∧
      taggedListing.LooksAheadAt [(7, 1), (7, 2), (9, 4)] [] none page ∧
        Reached taggedListing.orm ([] ++ page.items)
          (taggedListing.statement.execute [(7, 1), (7, 2), (9, 4)]) := by
  obtain ⟨hread, hpage⟩ := @page_tagged [(7, 1), (7, 2), (9, 4)] (by decide) (by decide)
  have hnone : taggedListing.NoneHiddenAt [(7, 1), (7, 2), (9, 4)] 2 [] none := by
    refine .inr fun row hrow => ?_
    obtain ⟨pair, hpair, -, rfl⟩ := (mem_rowsLeft rfl rfl).mp hrow
    have hread' : taggedListing.rowsRead [(7, 1), (7, 2), (9, 4)] none (2 : Nat) = [7, 7, 9] :=
      hread
    rw [hread']
    rw [kept_tagged] at hpair
    simp only [List.mem_cons, List.not_mem_nil, or_false] at hpair
    rcases hpair with rfl | rfl | rfl <;> decide
  obtain ⟨hright, hwalk⟩ := lookahead_iff.1 taggedListing _ 2 [] none _ hpage
  refine ⟨_, hpage, hright.mpr hnone, ?_⟩
  exact (hwalk taggedField (keyed_tagged (by decide)) (.first hpage) rfl).mpr hnone

end ProdkitStorage.Database
