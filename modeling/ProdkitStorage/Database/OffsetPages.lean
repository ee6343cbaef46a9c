import ProdkitStorage.Database.Pagination
import ProdkitStorage.Foundation.Slices

/-!
# Offset pages

The pages of `paginate_offset_sync` are the slices of what the statement selects.
With the total, `has_next_page` compares the page with the ceiling of a quotient;
without it, a page fetches one row more than it shows.  Both see whether the next
slice has a row.

The paginator sets OFFSET and LIMIT of the statement, and `count_subquery` keeps
those the statement came with.  So the two agree exactly where these leave no row
out, as they do in a statement that has none.
-/

namespace ProdkitStorage.Database

open ProdkitStorage.Foundation
open ProdkitStorage.Python

variable {Db Env Row Id : Type}

/-- Pages 1, 2, ... partition the result of a statement, and both modes agree about them.  Page
`i + 1` is `counted i` with the total and `lookahead i` without it. -/
structure PagesPartition [DecidableEq Id] (orm : Orm Row Id) (statement : Select Db Env Row)
    (db : Db) (limit : Int) (counted lookahead : ℕ → OffsetPage Row) : Prop where
  counted_page : ∀ i : ℕ,
    paginateOffsetSync orm statement db (i + 1) limit true none = .ok (counted i)
  lookahead_page : ∀ i : ℕ,
    paginateOffsetSync orm statement db (i + 1) limit false none = .ok (lookahead i)
  /-- Enough pages are the whole result. -/
  items_concat : ∃ last, ∀ k ≥ last,
    (List.range k).flatMap (fun i => (counted i).items) = statement.execute db
  items_eq : ∀ i, (counted i).items = (lookahead i).items
  hasNextPage_eq : ∀ i, (counted i).hasNextPage = (lookahead i).hasNextPage
  hasNextPage_iff : ∀ i, (counted i).hasNextPage = true ↔ (counted (i + 1)).items ≠ []
  /-- `total_pages` is the number of pages that have an item. -/
  totalPages : ∀ i, ∃ total : ℕ, (counted i).totalPages = some (total : Int) ∧
    {j | (counted j).items ≠ []}.encard = total

/-- The pages of every size partition the result. -/
def OffsetPagesPartition [DecidableEq Id] (orm : Orm Row Id) (statement : Select Db Env Row)
    (db : Db) : Prop :=
  ∀ limit : Int, 1 ≤ limit → limit ≤ 500 →
    ∃ counted lookahead, PagesPartition orm statement db limit counted lookahead

/-! ## One page -/

theorem ceilDiv_eq {count limit : ℕ} (hcount : count < 2 ^ 53) (hlimit : 0 < limit) :
    ceilDiv count limit = ((count + limit - 1) / limit : ℕ) := by
  rw [ceilDiv, Int.cast_natCast, Int.cast_natCast, ceil_binary64_div hcount hlimit]

theorem validateOffset_ok {i limit : ℕ} (hlimit : 1 ≤ limit ∧ limit ≤ 500) :
    validateOffset (i + 1) limit = .ok () := by
  rw [validateOffset, if_neg (by omega)]
  exact validateLimit_ok (by omega)

/-- The count is the number of rows of the statement, in whatever order. -/
theorem countSync_none (statement : Select Db Env Row) (db : Db) :
    countSync statement none db = (statement.execute db).length := by
  have hlength : ((countSubquery statement).ordered db).length = (statement.ordered db).length :=
    ((sortBy_perm _ _).trans (sortBy_perm _ _).symm).length_eq
  have hwindow : (statement.window ((countSubquery statement).ordered db)).length =
      (statement.window (statement.ordered db)).length := Select.length_window_congr hlength
  rw [countSync, Select.execute, Select.execute, List.length_map, List.length_map]
  exact congrArg Nat.cast hwindow

/-- The rows the query of a page fetches. -/
theorem execute_offsetQuery (statement : Select Db Env Row) (db : Db) (i limit : ℕ)
    (includeTotal : Bool) :
    (offsetQuery statement (i + 1) limit includeTotal).execute db =
      ((statement.unwindowed db).drop (i * limit)).take
        (if includeTotal then limit else limit + 1) := by
  have hskip : (((i + 1 : Int) - 1) * limit).toNat = i * limit := by
    rw [Int.add_sub_cancel, ← Int.natCast_mul, Int.toNat_natCast]
  have hfetch : (if includeTotal then (limit : Int) else limit + 1).toNat =
      if includeTotal then limit else limit + 1 := by
    cases includeTotal with
    | true => rfl
    | false => rfl
  rw [Select.unwindowed, ← List.map_drop, ← List.map_take, ← hskip, ← hfetch]
  rfl

/-- Page `i + 1` with the total. -/
def countedPage (statement : Select Db Env Row) (db : Db) (limit i : ℕ) : OffsetPage Row :=
  offsetPage (slice limit (statement.unwindowed db) i) (i + 1) limit
    (some (statement.execute db).length)
    (decide ((i + 1 : Int) < ceilDiv (statement.execute db).length limit))

/-- Page `i + 1` without the total. -/
def lookaheadPage (statement : Select Db Env Row) (db : Db) (limit i : ℕ) : OffsetPage Row :=
  offsetPage (slice limit (statement.unwindowed db) i) (i + 1) limit none
    (decide ((i + 1) * limit < (statement.unwindowed db).length))

section Page

variable [DecidableEq Id] {orm : Orm Row Id} {statement : Select Db Env Row} {db : Db}
  {limit : ℕ}

theorem paginateOffsetSync_counted (hlimit : 1 ≤ limit ∧ limit ≤ 500) (i : ℕ)
    (hdistinct : (slice limit (statement.unwindowed db) i).Pairwise
      fun a b => orm.identity a ≠ orm.identity b) :
    paginateOffsetSync orm statement db (i + 1) limit true none =
      .ok (countedPage statement db limit i) := by
  have hrows : uniqueScalars orm ((offsetQuery statement (i + 1) limit true).execute db) =
      slice limit (statement.unwindowed db) i := by
    rw [execute_offsetQuery]
    exact uniqueScalars_eq_self hdistinct
  unfold paginateOffsetSync
  rw [validateOffset_ok hlimit]
  simp only [if_true, countSync_none, hrows]
  have htake : (slice limit (statement.unwindowed db) i).take (limit : Int).toNat =
      slice limit (statement.unwindowed db) i :=
    List.take_of_length_le (by rw [length_slice, Int.toNat_natCast]; omega)
  rw [htake]
  rfl

theorem paginateOffsetSync_lookahead (hlimit : 1 ≤ limit ∧ limit ≤ 500) (i : ℕ)
    (hdistinct : (statement.unwindowed db).Pairwise
      fun a b => orm.identity a ≠ orm.identity b) :
    paginateOffsetSync orm statement db (i + 1) limit false none =
      .ok (lookaheadPage statement db limit i) := by
  have hrows : uniqueScalars orm ((offsetQuery statement (i + 1) limit false).execute db) =
      ((statement.unwindowed db).drop (i * limit)).take (limit + 1) := by
    rw [execute_offsetQuery]
    exact uniqueScalars_eq_self
      (hdistinct.sublist ((List.take_sublist _ _).trans (List.drop_sublist _ _)))
  unfold paginateOffsetSync
  rw [validateOffset_ok hlimit]
  simp only [Bool.false_eq_true, if_false, hrows]
  have htake : (((statement.unwindowed db).drop (i * limit)).take (limit + 1)).take
      (limit : Int).toNat = slice limit (statement.unwindowed db) i := by
    rw [List.take_take, Int.toNat_natCast, Nat.min_eq_left (Nat.le_succ limit), slice]
  have hmore : (limit : Int).toNat <
        (((statement.unwindowed db).drop (i * limit)).take (limit + 1)).length ↔
      (i + 1) * limit < (statement.unwindowed db).length := by
    rw [List.length_take, List.length_drop, Int.toNat_natCast, Nat.succ_mul]
    omega
  rw [htake, decide_eq_decide.mpr hmore]
  rfl

/-- Where OFFSET and LIMIT leave no row out, the pages are the slices of the result. -/
theorem pagesPartition_of_keepsAll (hlimit : 1 ≤ limit ∧ limit ≤ 500)
    (hkeeps : statement.KeepsAll db)
    (hdistinct : (statement.execute db).Pairwise fun a b => orm.identity a ≠ orm.identity b)
    (hcount : (statement.execute db).length < 2 ^ 53) :
    PagesPartition orm statement db limit (countedPage statement db limit)
      (lookaheadPage statement db limit) := by
  have hsize : 0 < limit := hlimit.1
  have hpages := ceilDiv_eq hcount hsize
  have hresult := hkeeps.execute_eq
  have hnext : ∀ i : ℕ, ((i + 1 : Int) < ceilDiv (statement.execute db).length limit) ↔
      (i + 1) * limit < (statement.execute db).length := by
    intro i
    have hslice : slice limit (statement.execute db) (i + 1) ≠ [] ↔
        (i + 1) * limit < (statement.execute db).length := slice_ne_nil_iff hsize
    rw [hpages, ← hslice, slice_ne_nil_iff_lt hsize]
    exact_mod_cast Iff.rfl
  rw [hresult] at hdistinct
  refine ⟨?counted, ?lookahead, ?concat, ?items, ?next, ?more, ?total⟩
  case counted =>
    intro i
    exact paginateOffsetSync_counted hlimit i
      (hdistinct.sublist ((List.take_sublist _ _).trans (List.drop_sublist _ _)))
  case lookahead => exact fun i => paginateOffsetSync_lookahead hlimit i hdistinct
  case concat =>
    refine ⟨(statement.execute db).length, fun k hk => ?_⟩
    rw [hresult] at hk ⊢
    exact flatMap_slice_eq_self (hk.trans (Nat.le_mul_of_pos_right k hsize))
  case items => exact fun i => rfl
  case next =>
    intro i
    exact decide_eq_decide.mpr (hresult ▸ hnext i)
  case more =>
    intro i
    refine decide_eq_true_iff.trans ((hnext i).trans ?_)
    rw [hresult]
    exact (slice_ne_nil_iff hsize).symm
  case total =>
    intro i
    refine ⟨_, congrArg some hpages, ?_⟩
    rw [hresult]
    exact encard_slice_ne_nil hsize _

/-- Pages of one row show everything a statement selects, also what its own OFFSET or LIMIT
leaves out. -/
theorem keepsAll_of_pagesPartition {counted lookahead : ℕ → OffsetPage Row}
    (h : PagesPartition orm statement db (1 : ℕ) counted lookahead) : statement.KeepsAll db := by
  have hitems : (fun i => (counted i).items) = slice 1 (statement.unwindowed db) := by
    funext i
    have halone : (slice 1 (statement.unwindowed db) i).Pairwise
        fun a b => orm.identity a ≠ orm.identity b := by
      refine pairwise_of_length_le_one ?_
      rw [length_slice]
      exact Nat.min_le_left _ _
    have hpage := h.counted_page i
    rw [paginateOffsetSync_counted (by omega) i halone] at hpage
    exact congrArg OffsetPage.items (Except.ok.inj hpage).symm
  obtain ⟨last, hlast⟩ := h.items_concat
  have hresult := hlast (max last (statement.unwindowed db).length) (Nat.le_max_left _ _)
  rw [hitems, flatMap_slice_eq_self (by rw [Nat.mul_one]; exact Nat.le_max_right _ _)] at hresult
  exact Select.keepsAll_of_length (congrArg List.length hresult.symm)

end Page

/-- The pages partition a result of distinct entities, and both modes agree about them, exactly
where the OFFSET and the LIMIT of the statement itself leave no row out. -/
theorem offset_pages_iff [DecidableEq Id] (orm : Orm Row Id) (statement : Select Db Env Row)
    (db : Db)
    (hdistinct : (statement.execute db).Pairwise fun a b => orm.identity a ≠ orm.identity b)
    (hcount : (statement.execute db).length < 2 ^ 53) :
    OffsetPagesPartition orm statement db ↔ statement.KeepsAll db := by
  constructor
  · intro h
    obtain ⟨counted, lookahead, hpages⟩ := h 1 (by omega) (by omega)
    exact keepsAll_of_pagesPartition hpages
  · intro hkeeps limit hlow hhigh
    obtain ⟨size, rfl⟩ := Int.eq_ofNat_of_zero_le (by omega : 0 ≤ limit)
    exact ⟨_, _, pagesPartition_of_keepsAll (by omega) hkeeps hdistinct hcount⟩

/-- A table of numbers, each an entity of its own, in their order. -/
def numbers : Select (List ℕ) ℕ ℕ where
  source db := db
  orderBy := [compare]
  entity number := number

def numbersOrm : Orm ℕ ℕ where
  getattr number _ := .ok (some (.int number))
  identity number := number

theorem offset_pages_numbers : OffsetPagesPartition numbersOrm numbers [30, 10, 20] := by
  have hkeeps : numbers.KeepsAll [30, 10, 20] := Select.keepsAll_of_none rfl rfl _
  have hresult : (numbers.execute [30, 10, 20]).Perm [30, 10, 20] := by
    rw [hkeeps.execute_eq, Select.unwindowed, numbers, List.map_id']
    exact sortBy_perm _ _
  refine (offset_pages_iff numbersOrm numbers [30, 10, 20] ?_ ?_).mpr hkeeps
  · exact hresult.nodup_iff.mpr (by decide)
  · rw [hresult.length_eq]
    decide

/-- The result of a statement with a LIMIT of its own has one entity here, and its pages
show two. -/
theorem limited_pages_show_more :
    ((numbers.withLimit 1).execute [10, 20]).Pairwise
      (fun a b => numbersOrm.identity a ≠ numbersOrm.identity b) ∧
    ((numbers.withLimit 1).execute [10, 20]).length < 2 ^ 53 ∧
    ¬OffsetPagesPartition numbersOrm (numbers.withLimit 1) [10, 20] := by
  have hlength : ((numbers.withLimit 1).execute [10, 20]).length ≤ 1 :=
    Select.length_execute_withLimit
  refine ⟨pairwise_of_length_le_one hlength, by omega, fun h => ?_⟩
  obtain ⟨counted, lookahead, hpages⟩ := h 1 (by omega) (by omega)
  have hall := (keepsAll_of_pagesPartition hpages).execute_eq
  have hselected : ((numbers.withLimit 1).unwindowed [10, 20]).length = 2 := by
    rw [Select.unwindowed, List.length_map]
    exact (sortBy_perm _ _).length_eq
  rw [hall, hselected] at hlength
  omega

end ProdkitStorage.Database
