import Mathlib.Data.List.ProdSigma
import ProdkitStorage.Database.CursorValues
import ProdkitStorage.Database.Repository

/-!
# Which reads hide soft-deleted rows

A `ReadOp` is one call of a read, without `include_deleted`, and `reads` gives the
rows it returns or counts.  `Hides` says that none of them is soft-deleted,
whatever the tables hold.

`get`, `require`, `exists` and the default statements filter the mapped class
themselves.  `list`, `stream` and `count` add the filter to the statement of the
caller; `get_one`, `get_one_or_none`, `get_all` and the paginators run it as it
is, and `paginate_offset` a count statement too.  So what decides is what the
statements of the caller keep (`KeepsLive`, `LiveQuery`).
-/

namespace ProdkitStorage.Database

open ProdkitStorage.Foundation
open ProdkitStorage.Python

/-- A call of a read of a repository. -/
inductive ReadOp (Db Env Row Id : Type) where
  | get (identity : Id) (arguments : LockArguments)
  | require (identity : Id) (arguments : LockArguments)
  | getOne (statement : CallerStatement Db Env Row)
  | getOneOrNone (statement : CallerStatement Db Env Row)
  | getAll (statement : CallerStatement Db Env Row)
  | list (statement : Option (CallerStatement Db Env Row))
  | stream (statement : Option (CallerStatement Db Env Row)) (yieldPer : Int)
  | count (statement : Option (CallerStatement Db Env Row))
  | exists_ (criteria : List (Row → Truth))
  | paginateCursor (lib : Primitives) (statement : CallerStatement Db Env Row)
      (sort : SortPlan Env Row) (codec : CursorCodec) (cursor : Option String) (limit : Int)
      (queryFingerprint : Option String)
  | paginateOffset (statement : CallerStatement Db Env Row) (page limit : Int)
      (includeTotal : Bool) (countStatement : Option (CountStatement Db Row))

variable {Db Env Row Id : Type}

namespace Repository

variable (repo : Repository Db Row Id)

/-- The filter is true of the row of the mapped class, if the environment has one. -/
def PassesFilter (statement : CallerStatement Db Env Row) (env : Env) : Prop :=
  ∀ mapped, statement.mapped = some mapped → repo.model.isLive (mapped env) = true

/-- The criteria of the caller, with the filter or without, keep live entities only. -/
def KeepsLive (filtered : Bool) (statement : CallerStatement Db Env Row) : Prop :=
  ∀ env, statement.select.satisfies env = true →
    (filtered = true → repo.PassesFilter statement env) →
      repo.model.isLive (statement.select.entity env) = true

/-- A query keeps live entities only. -/
def LiveQuery (query : Query Db Row) : Prop :=
  ∀ env, query.select.satisfies env = true → repo.model.isLive (query.select.entity env) = true

/-- What the statements of a read have to do for it. -/
def Shielded : ReadOp Db Env Row Id → Prop
  | .get _ _ | .require _ _ | .exists_ _ => True
  | .list none | .stream none _ | .count none => True
  | .list (some statement) | .stream (some statement) _ | .count (some statement) =>
      repo.KeepsLive true statement
  | .getOne statement | .getOneOrNone statement | .getAll statement =>
      repo.KeepsLive false statement
  | .paginateCursor _ statement _ _ _ _ _ => repo.KeepsLive false statement
  | .paginateOffset statement _ _ includeTotal countStatement => repo.KeepsLive false statement ∧
      (includeTotal = true → ∀ given, countStatement = some given → repo.LiveQuery given.query)

/-- A statement that selects the mapped class is shielded by the filter. -/
theorem keepsLive_mapped {statement : CallerStatement Db Env Row}
    (h : statement.mapped = some statement.select.entity) : repo.KeepsLive true statement :=
  fun _ _ hfilter => hfilter rfl _ h

variable {repo}

/-! ## The filter -/

theorem isNull_eq_true {deletedAt : Row → Option Datetime}
    (h : repo.model.deletedAt = some deletedAt) (row : Row) :
    Truth.isNull (deletedAt row) = .true ↔ repo.model.isLive row = true := by
  simp [Truth.isNull, Model.isLive, h]

theorem satisfies_filterDeleted {statement : Select Db Env Row} {mapped : Env → Row} {env : Env} :
    (repo.filterDeleted statement mapped false).satisfies env = true ↔
      statement.satisfies env = true ∧ repo.model.isLive (mapped env) = true := by
  cases hdeleted : repo.model.deletedAt with
  | none => simp [filterDeleted, hdeleted, Model.isLive]
  | some deletedAt =>
      simp only [filterDeleted, hdeleted, Select.satisfies_where, isNull_eq_true hdeleted]

variable (repo) in
/-- The filter changes the criteria of a statement only. -/
theorem filterDeleted_frame (statement : Select Db Env Row) (mapped : Env → Row) :
    (repo.filterDeleted statement mapped false).source = statement.source ∧
      (repo.filterDeleted statement mapped false).entity = statement.entity ∧
      (repo.filterDeleted statement mapped false).offset = statement.offset ∧
      (repo.filterDeleted statement mapped false).limit = statement.limit := by
  unfold filterDeleted
  split
  · exact ⟨rfl, rfl, rfl, rfl⟩
  · exact ⟨rfl, rfl, rfl, rfl⟩

theorem satisfies_crossJoin {statement : Select Db Env Row} {table : Db → List Row}
    {env : Env × Row} :
    (crossJoin statement table).satisfies env = true ↔ statement.satisfies env.1 = true := by
  simp [Select.satisfies_iff, crossJoin]

theorem isLive_of_no_column (h : repo.model.deletedAt = none) (row : Row) :
    repo.model.isLive row = true := by
  simp [Model.isLive, h]

/-! ## The query of `list`, `stream` and `count` -/

theorem applySoftDelete_mapped {statement : CallerStatement Db Env Row} {mapped : Env → Row}
    (h : statement.mapped = some mapped) :
    repo.applySoftDelete statement false =
      ⟨Env, repo.filterDeleted statement.select mapped false⟩ := by
  rw [applySoftDelete, h]

theorem applySoftDelete_plain {statement : CallerStatement Db Env Row}
    (h : statement.mapped = none) (hdeleted : repo.model.deletedAt = none) :
    repo.applySoftDelete statement false = ⟨Env, statement.select⟩ := by
  simp [applySoftDelete, h, hdeleted]

theorem applySoftDelete_alias {statement : CallerStatement Db Env Row}
    {deletedAt : Row → Option Datetime} (h : statement.mapped = none)
    (hdeleted : repo.model.deletedAt = some deletedAt) :
    repo.applySoftDelete statement false =
      ⟨Env × Row, repo.filterDeleted (crossJoin statement.select repo.model.table) Prod.snd
        false⟩ := by
  simp [applySoftDelete, h, hdeleted]

theorem liveQuery_baseStatement : repo.LiveQuery ⟨Row, repo.baseStatement false⟩ := by
  intro row hrow
  obtain ⟨-, hlive⟩ := satisfies_filterDeleted.mp hrow
  simpa [baseStatement, (filterDeleted_frame _ _ _).2.1] using hlive

/-- The filter shields a statement that keeps live entities on the rows the filter passes. -/
theorem liveQuery_applySoftDelete {statement : CallerStatement Db Env Row}
    (hkeeps : repo.KeepsLive true statement) :
    repo.LiveQuery (repo.applySoftDelete statement false) := by
  cases hmapped : statement.mapped with
  | some mapped =>
      rw [applySoftDelete_mapped hmapped]
      intro env henv
      obtain ⟨hsatisfies, hlive⟩ := satisfies_filterDeleted.mp henv
      rw [(filterDeleted_frame _ _ _).2.1]
      refine hkeeps env hsatisfies fun _ mapped' hmapped' => ?_
      obtain rfl := Option.some.inj (hmapped.symm.trans hmapped')
      exact hlive
  | none =>
      cases hdeleted : repo.model.deletedAt with
      | none =>
          rw [applySoftDelete_plain hmapped hdeleted]
          exact fun env _ => isLive_of_no_column hdeleted _
      | some deletedAt =>
          rw [applySoftDelete_alias hmapped hdeleted]
          intro env henv
          obtain ⟨hsatisfies, -⟩ := satisfies_filterDeleted.mp henv
          rw [(filterDeleted_frame _ _ _).2.1]
          refine hkeeps env.1 (satisfies_crossJoin.mp hsatisfies) fun _ mapped hmapped' => ?_
          cases hmapped.symm.trans hmapped'

theorem LiveQuery.execute {query : Query Db Row} (h : repo.LiveQuery query) (db : Db) :
    ∀ row ∈ query.execute db, repo.model.isLive row = true := by
  intro row hrow
  obtain ⟨env, -, hsatisfies, rfl⟩ := Select.mem_execute hrow
  exact h env hsatisfies

/-- Dropping the order changes no row a query keeps. -/
theorem LiveQuery.countSubquery {query : Query Db Row} (h : repo.LiveQuery query) :
    repo.LiveQuery query.countSubquery := h

/-! ## The rows of a call -/

variable [DecidableEq Id]

variable (repo) in
/-- The rows a call returns or counts. -/
def reads (session : ReadSession Db Row) : ReadOp Db Env Row Id → Except PyError (List Row)
  | .get identity arguments => do
      let entity ← repo.get session identity arguments false
      return entity.toList
  | .require identity arguments => do
      let entity ← repo.require session identity arguments false
      return [entity]
  | .getOne statement => do
      let entity ← repo.getOne session statement
      return [entity]
  | .getOneOrNone statement => do
      let entity ← repo.getOneOrNone session statement
      return entity.toList
  | .getAll statement => .ok (repo.getAll session statement)
  | .list statement => .ok (repo.list session statement false)
  | .stream statement yieldPer => repo.stream session statement yieldPer false
  | .count statement => .ok (repo.countedRows session statement false)
  | .exists_ criteria => .ok (repo.matchingRows session criteria false)
  | .paginateCursor lib statement sort codec cursor limit queryFingerprint => do
      let page ← repo.paginateCursor lib session statement sort codec cursor limit queryFingerprint
      return page.items
  | .paginateOffset statement page limit includeTotal countStatement => do
      let result ← repo.paginateOffset session statement page limit includeTotal countStatement
      return result.items ++ totalledRows session statement includeTotal countStatement

variable (repo) in
/-- No call returns or counts a soft-deleted row, whatever the tables hold. -/
def Hides (op : ReadOp Db Env Row Id) : Prop :=
  ∀ session rows, repo.reads session op = .ok rows → ∀ row ∈ rows, repo.model.isLive row = true

/-! ## Shielded calls hide soft-deleted rows -/

theorem mem_scalarOneOrNone {Row : Type} {rows : List Row} {found : Option Row}
    (h : scalarOneOrNone rows = .ok found) : ∀ row ∈ found.toList, row ∈ rows := by
  cases rows with
  | nil =>
      obtain rfl := Except.ok.inj h
      simp
  | cons first rest =>
      cases rest with
      | nil =>
          obtain rfl := Except.ok.inj h
          simp
      | cons second rest => cases h

theorem mem_scalarOne {Row : Type} {rows : List Row} {row : Row} (h : scalarOne rows = .ok row) :
    row ∈ rows := by
  cases rows with
  | nil => cases h
  | cons first rest =>
      cases rest with
      | nil =>
          obtain rfl := Except.ok.inj h
          exact List.mem_singleton_self _
      | cons second rest => cases h

theorem mem_lockRows {Row : Type} {locked : Row → Bool} {lock : Option RowLock}
    {rows found : List Row} (h : lockRows locked lock rows = .ok found) :
    ∀ row ∈ found, row ∈ rows := by
  unfold lockRows at h
  split at h
  · obtain rfl := Except.ok.inj h
    exact fun _ hrow => hrow
  · split at h
    · obtain rfl := Except.ok.inj h
      exact fun _ hrow => List.mem_of_mem_filter hrow
    · split at h
      · cases h
      · obtain rfl := Except.ok.inj h
        exact fun _ hrow => hrow

/-- `get` returns a live row. -/
theorem isLive_of_get {session : ReadSession Db Row} {identity : Id} {arguments : LockArguments}
    {found : Option Row} (h : repo.get session identity arguments false = .ok found) :
    ∀ row ∈ found.toList, repo.model.isLive row = true := by
  obtain ⟨lock, -, h⟩ := bind_eq_ok.mp h
  obtain ⟨rows, hrows, h⟩ := bind_eq_ok.mp h
  intro row hrow
  have hmem := mem_lockRows hrows row (mem_of_mem_uniqueScalars (mem_scalarOneOrNone h row hrow))
  obtain ⟨env, -, hsatisfies, rfl⟩ := Select.mem_execute hmem
  exact liveQuery_baseStatement env (Select.satisfies_where.mp hsatisfies).1

/-- More criteria keep fewer rows. -/
theorem satisfies_foldl_where {statement : Select Db Env Row} {criteria : List (Env → Truth)}
    {env : Env} (h : (criteria.foldl Select.where_ statement).satisfies env = true) :
    statement.satisfies env = true := by
  induction criteria generalizing statement with
  | nil => exact h
  | cons condition criteria ih => exact (Select.satisfies_where.mp (ih h)).1

theorem entity_foldl_where (statement : Select Db Env Row) (criteria : List (Env → Truth)) :
    (criteria.foldl Select.where_ statement).entity = statement.entity := by
  induction criteria generalizing statement with
  | nil => rfl
  | cons condition criteria ih => exact ih _

omit [DecidableEq Id] in
/-- The rows `exists` looks for are live. -/
theorem isLive_of_matchingRows {session : ReadSession Db Row} {criteria : List (Row → Truth)} :
    ∀ row ∈ repo.matchingRows session criteria false, repo.model.isLive row = true := by
  intro row hrow
  obtain ⟨env, -, hsatisfies, rfl⟩ := Select.mem_execute hrow
  rw [entity_foldl_where]
  exact liveQuery_baseStatement env (satisfies_foldl_where hsatisfies)

omit [DecidableEq Id] in
theorem liveQuery_readQuery {statement : Option (CallerStatement Db Env Row)}
    (hkeeps : ∀ given, statement = some given → repo.KeepsLive true given) :
    repo.LiveQuery (repo.readQuery statement false) := by
  cases statement with
  | none => exact liveQuery_baseStatement
  | some given => exact liveQuery_applySoftDelete (hkeeps given rfl)

omit [DecidableEq Id] in
/-- The rows a statement of the caller yields are live when its own criteria keep live entities. -/
theorem KeepsLive.execute {statement : CallerStatement Db Env Row}
    (h : repo.KeepsLive false statement) (db : Db) :
    ∀ row ∈ statement.select.execute db, repo.model.isLive row = true := by
  intro row hrow
  obtain ⟨env, -, hsatisfies, rfl⟩ := Select.mem_execute hrow
  exact h env hsatisfies fun hfalse => by cases hfalse

omit [DecidableEq Id] in
/-- The rows a total counts are live when both statements keep live entities only. -/
theorem isLive_of_totalledRows {session : ReadSession Db Row}
    {statement : CallerStatement Db Env Row}
    {includeTotal : Bool} {countStatement : Option (CountStatement Db Row)}
    (hkeeps : repo.KeepsLive false statement)
    (hcount : includeTotal = true → ∀ given, countStatement = some given →
      repo.LiveQuery given.query) :
    ∀ row ∈ totalledRows session statement includeTotal countStatement,
      repo.model.isLive row = true := by
  intro row hrow
  cases includeTotal with
  | false => cases hrow
  | true =>
      cases countStatement with
      | some given => exact (hcount rfl given rfl).execute _ row hrow
      | none =>
          obtain ⟨env, -, hsatisfies, rfl⟩ := Select.mem_execute hrow
          exact hkeeps env hsatisfies fun hfalse => by cases hfalse

theorem hides_of_shielded {op : ReadOp Db Env Row Id} (h : repo.Shielded op) : repo.Hides op := by
  intro session rows hrows row hrow
  cases op with
  | get identity arguments =>
      obtain ⟨found, hfound, hrows⟩ := bind_eq_ok.mp hrows
      obtain rfl := Except.ok.inj hrows
      exact isLive_of_get hfound row hrow
  | require identity arguments =>
      obtain ⟨entity, hentity, hrows⟩ := bind_eq_ok.mp hrows
      obtain rfl := Except.ok.inj hrows
      obtain rfl := List.mem_singleton.mp hrow
      obtain ⟨found, hfound, hentity⟩ := bind_eq_ok.mp hentity
      cases found with
      | none => cases hentity
      | some found =>
          obtain rfl := Except.ok.inj hentity
          exact isLive_of_get hfound _ (by simp)
  | getOne statement =>
      obtain ⟨entity, hentity, hrows⟩ := bind_eq_ok.mp hrows
      obtain rfl := Except.ok.inj hrows
      obtain rfl := List.mem_singleton.mp hrow
      exact KeepsLive.execute h _ _ (mem_of_mem_uniqueScalars (mem_scalarOne hentity))
  | getOneOrNone statement =>
      obtain ⟨found, hfound, hrows⟩ := bind_eq_ok.mp hrows
      obtain rfl := Except.ok.inj hrows
      exact KeepsLive.execute h _ _
        (mem_of_mem_uniqueScalars (mem_scalarOneOrNone hfound row hrow))
  | getAll statement =>
      obtain rfl := Except.ok.inj hrows
      exact KeepsLive.execute h _ _ (mem_of_mem_uniqueScalars hrow)
  | list statement =>
      obtain rfl := Except.ok.inj hrows
      have hlive : repo.LiveQuery (repo.readQuery statement false) :=
        liveQuery_readQuery fun given hgiven => by rw [hgiven] at h; exact h
      exact hlive.execute _ _ (mem_of_mem_uniqueScalars hrow)
  | stream statement yieldPer =>
      have hlive : repo.LiveQuery (repo.readQuery statement false) :=
        liveQuery_readQuery fun given hgiven => by rw [hgiven] at h; exact h
      simp only [reads, stream] at hrows
      split at hrows
      · cases hrows
      · obtain rfl := Except.ok.inj hrows
        exact hlive.execute _ _ hrow
  | count statement =>
      obtain rfl := Except.ok.inj hrows
      have hlive : repo.LiveQuery (repo.readQuery statement false) :=
        liveQuery_readQuery fun given hgiven => by rw [hgiven] at h; exact h
      exact hlive.countSubquery.execute _ _ hrow
  | exists_ criteria =>
      obtain rfl := Except.ok.inj hrows
      exact isLive_of_matchingRows row hrow
  | paginateCursor lib statement sort codec cursor limit queryFingerprint =>
      obtain ⟨page, hpage, hrows⟩ := bind_eq_ok.mp hrows
      obtain rfl := Except.ok.inj hrows
      obtain ⟨env, hsatisfies, rfl⟩ := paginateSync_items hpage row hrow
      exact h env hsatisfies fun hfalse => by cases hfalse
  | paginateOffset statement page limit includeTotal countStatement =>
      obtain ⟨result, hresult, hrows⟩ := bind_eq_ok.mp hrows
      obtain rfl := Except.ok.inj hrows
      rcases List.mem_append.mp hrow with hitem | hcounted
      · obtain ⟨env, hsatisfies, rfl⟩ := paginateOffsetSync_items hresult row hitem
        exact h.1 env hsatisfies fun hfalse => by cases hfalse
      · exact isLive_of_totalledRows h.1 h.2 row hcounted

/-! ## Calls that are not shielded show one -/

variable (repo) in
/-- The statement starts at the first row, and its tables may hold anything: one combination of
rows alone, or one next to a live row. -/
structure FromStart (statement : CallerStatement Db Env Row) : Prop where
  offset : statement.select.offset = none
  limit : statement.select.limit = none
  alone : ∀ env, ∃ db, statement.select.source db = [env]
  withLive : statement.mapped = none → ∀ env, ∃ db, env ∈ statement.select.source db ∧
    (∃ row ∈ repo.model.table db, repo.model.isLive row = true) ∧
      ∀ a ∈ statement.select.source db, ∀ b ∈ statement.select.source db,
        repo.orm.identity (statement.select.entity a) =
          repo.orm.identity (statement.select.entity b) →
            statement.select.entity a = statement.select.entity b

/-- A query that starts at the first row, over tables that may hold anything. -/
structure Unlimited (query : Query Db Row) : Prop where
  offset : query.select.offset = none
  limit : query.select.limit = none
  holds : ∀ env, ∃ db, env ∈ query.select.source db

variable (repo) in
/-- The call reads from the first row on, with arguments its checks accept. -/
def ReadsFromStart : ReadOp Db Env Row Id → Prop
  | .get _ _ | .require _ _ | .exists_ _ => True
  | .list none | .stream none _ | .count none => True
  | .getOne statement | .getOneOrNone statement | .getAll statement => repo.FromStart statement
  | .list (some statement) | .count (some statement) => repo.FromStart statement
  | .stream (some statement) yieldPer => repo.FromStart statement ∧ 1 ≤ yieldPer
  | .paginateCursor _ statement _ _ cursor limit _ =>
      repo.FromStart statement ∧ cursor = none ∧ 1 ≤ limit ∧ limit ≤ 500
  | .paginateOffset statement page limit _ countStatement =>
      repo.FromStart statement ∧ page = 1 ∧ (1 ≤ limit ∧ limit ≤ 500) ∧
        ∀ given, countStatement = some given → Unlimited given.query

theorem uniqueScalars_singleton (orm : Orm Row Id) (row : Row) :
    uniqueScalars orm [row] = [row] :=
  uniqueScalars_eq_self (List.pairwise_singleton _ _)

/-- The first page over a single row. -/
theorem paginateSync_alone {lib : Primitives} {codec : CursorCodec} {sort : SortPlan Env Row}
    {queryFingerprint : Option String} {statement : Select Db Env Row} {db : Db} {env : Env}
    {limit : Int} (hlimit : 1 ≤ limit ∧ limit ≤ 500) (hoffset : statement.offset = none)
    (hsource : statement.source db = [env]) (hsatisfies : statement.satisfies env = true)
    (orm : Orm Row Id) :
    paginateSync lib orm codec sort queryFingerprint statement db none limit =
      .ok ⟨[statement.entity env], none, false⟩ := by
  have hrows : ((sort.apply statement).withLimit (limit.toNat + 1)).execute db =
      [statement.entity env] :=
    Select.execute_alone (by simp [Select.withLimit, SortPlan.apply, Select.addOrder, hoffset])
      (by simp [Select.withLimit]) hsource hsatisfies
  have hquery : prepareSortedQuery lib codec sort queryFingerprint statement none limit =
      .ok ((sort.apply statement).withLimit (limit.toNat + 1)) := by
    rw [prepareSortedQuery, validateLimit_ok hlimit]
    rfl
  obtain ⟨size, hsize⟩ : ∃ size, limit.toNat = size + 1 := ⟨limit.toNat - 1, by omega⟩
  rw [paginateSync, hquery, ok_bind, IdentityMap.map_object_empty, hrows, uniqueScalars_singleton]
  simp [buildSortedPage, buildPage, hsize]

theorem validateOffset_first {limit : Int} (hlimit : 1 ≤ limit ∧ limit ≤ 500) :
    validateOffset 1 limit = .ok () := by
  rw [validateOffset, validateLimit_ok hlimit]
  rfl

/-- There is a first offset page. -/
theorem paginateOffsetSync_first {limit : Int} (hlimit : 1 ≤ limit ∧ limit ≤ 500)
    (statement : Select Db Env Row) (db : Db) (orm : Orm Row Id) (includeTotal : Bool)
    (countStatement : Option (Db → Option Int)) :
    ∃ result, paginateOffsetSync orm statement db 1 limit includeTotal countStatement =
      .ok result ∧ result.items = (uniqueScalars orm
        ((offsetQuery statement 1 limit includeTotal).execute db)).take limit.toNat :=
  ⟨_, by rw [paginateOffsetSync, validateOffset_first hlimit, ok_bind]; rfl, rfl⟩

/-- The first offset page over a single row. -/
theorem paginateOffsetSync_alone {statement : Select Db Env Row} {db : Db} {env : Env} {limit : Int}
    (hlimit : 1 ≤ limit ∧ limit ≤ 500) (hsource : statement.source db = [env])
    (hsatisfies : statement.satisfies env = true) (orm : Orm Row Id) (includeTotal : Bool)
    (countStatement : Option (Db → Option Int)) :
    ∃ result, paginateOffsetSync orm statement db 1 limit includeTotal countStatement =
      .ok result ∧ result.items = [statement.entity env] := by
  have hrows : (offsetQuery statement 1 limit includeTotal).execute db =
      [statement.entity env] := by
    refine Select.execute_alone ?_ ?_ hsource hsatisfies
    · simp [offsetQuery, Select.withLimit, Select.withOffset]
    · cases includeTotal with
      | true => simp [offsetQuery, Select.withLimit]; omega
      | false => simp [offsetQuery, Select.withLimit]; omega
  obtain ⟨result, hresult, hitems⟩ :=
    paginateOffsetSync_first hlimit statement db orm includeTotal countStatement
  refine ⟨result, hresult, ?_⟩
  rw [hitems, hrows, uniqueScalars_singleton]
  exact List.take_of_length_le (by rw [List.length_singleton]; omega)

/-- A call that shows the only row there is, and hides soft-deleted rows, has criteria that keep
live entities only. -/
theorem keepsLive_of_alone {op : ReadOp Db Env Row Id} {statement : CallerStatement Db Env Row}
    (hides : repo.Hides op) (hstart : repo.FromStart statement)
    (hshows : ∀ db env, statement.select.source db = [env] →
      statement.select.satisfies env = true →
        ∃ counted, repo.reads ⟨db, fun _ => false⟩ op =
          .ok (statement.select.entity env :: counted)) :
    repo.KeepsLive false statement := by
  intro env hsatisfies _
  obtain ⟨db, hsource⟩ := hstart.alone env
  obtain ⟨counted, hrows⟩ := hshows db env hsource hsatisfies
  exact hides _ _ hrows _ List.mem_cons_self

/-- The rows of a statement over a single row. -/
theorem uniqueRows_alone {statement : CallerStatement Db Env Row}
    (hstart : repo.FromStart statement) {db : Db} {env : Env}
    (hsource : statement.select.source db = [env])
    (hsatisfies : statement.select.satisfies env = true) :
    repo.uniqueRows ⟨db, fun _ => false⟩ statement = [statement.select.entity env] := by
  have hrows : statement.select.execute db = [statement.select.entity env] :=
    Select.execute_alone (by rw [hstart.offset]; rfl) (by rw [hstart.limit]; exact nofun) hsource
      hsatisfies
  rw [uniqueRows, hrows, uniqueScalars_singleton]

/-- Without an offset and a limit a query shows and counts every environment its criteria keep. -/
theorem mem_query_of_unlimited {select : Select Db Env Row} {db : Db} {env : Env}
    (hoffset : select.offset = none) (hlimit : select.limit = none)
    (hsource : env ∈ select.source db) (hsatisfies : select.satisfies env = true) :
    select.entity env ∈ (⟨Env, select⟩ : Query Db Row).execute db ∧
      select.entity env ∈ (⟨Env, select⟩ : Query Db Row).countSubquery.execute db := by
  have hcounted : select.entity env ∈ (Database.countSubquery select).execute db :=
    Select.mem_execute_of_unlimited hoffset hlimit hsource hsatisfies
  exact ⟨Select.mem_execute_of_unlimited hoffset hlimit hsource hsatisfies, hcounted⟩

omit [DecidableEq Id] in
/-- The query of `list`, `stream` and `count` finds an entity the caller's criteria keep, on some
tables, unless the filter rejects it; and the rows of one entity are equal on these tables. -/
theorem exists_mem_readQuery {statement : CallerStatement Db Env Row}
    (hstart : repo.FromStart statement) {env : Env}
    (hsatisfies : statement.select.satisfies env = true)
    (hfilter : repo.PassesFilter statement env) :
    ∃ db, statement.select.entity env ∈ (repo.readQuery (some statement) false).execute db ∧
      statement.select.entity env ∈
        (repo.readQuery (some statement) false).countSubquery.execute db ∧
      ∀ row ∈ (repo.readQuery (some statement) false).execute db,
        repo.orm.identity row = repo.orm.identity (statement.select.entity env) →
          row = statement.select.entity env := by
  obtain ⟨hoffset, hlimit, halone, hwithLive⟩ := hstart
  rw [readQuery]
  cases hmapped : statement.mapped with
  | some mapped =>
      rw [applySoftDelete_mapped hmapped]
      obtain ⟨db, hsource⟩ := halone env
      obtain ⟨hsource', hentity', hoffset', hlimit'⟩ :=
        filterDeleted_frame repo statement.select mapped
      have hkept : (repo.filterDeleted statement.select mapped false).satisfies env = true :=
        satisfies_filterDeleted.mpr ⟨hsatisfies, hfilter mapped hmapped⟩
      have hmem : env ∈ (repo.filterDeleted statement.select mapped false).source db := by
        rw [hsource', hsource]
        exact List.mem_singleton_self _
      have hfound := mem_query_of_unlimited (hoffset'.trans hoffset) (hlimit'.trans hlimit) hmem
        hkept
      rw [hentity'] at hfound
      refine ⟨db, hfound.1, hfound.2, ?_⟩
      intro row hrow _
      obtain ⟨other, hother, -, rfl⟩ := Select.mem_execute hrow
      rw [hsource', hsource, List.mem_singleton] at hother
      rw [hother, hentity']
  | none =>
      obtain ⟨db, henv, ⟨row, hrow, hlive⟩, hcoherent⟩ := hwithLive hmapped env
      cases hdeleted : repo.model.deletedAt with
      | none =>
          rw [applySoftDelete_plain hmapped hdeleted]
          have hfound := mem_query_of_unlimited hoffset hlimit henv hsatisfies
          refine ⟨db, hfound.1, hfound.2, ?_⟩
          intro other hother hsame
          obtain ⟨env', henv', -, rfl⟩ := Select.mem_execute hother
          exact hcoherent env' henv' env henv hsame
      | some deletedAt =>
          rw [applySoftDelete_alias hmapped hdeleted]
          obtain ⟨hsource', hentity', hoffset', hlimit'⟩ := filterDeleted_frame repo
            (crossJoin statement.select repo.model.table) Prod.snd
          have hkept : (repo.filterDeleted (crossJoin statement.select repo.model.table) Prod.snd
              false).satisfies (env, row) = true :=
            satisfies_filterDeleted.mpr ⟨satisfies_crossJoin.mpr hsatisfies, hlive⟩
          have hmem : (env, row) ∈ (repo.filterDeleted (crossJoin statement.select repo.model.table)
              Prod.snd false).source db := by
            rw [hsource']
            exact List.mem_product.mpr ⟨henv, hrow⟩
          have hfound := mem_query_of_unlimited (hoffset'.trans hoffset) (hlimit'.trans hlimit)
            hmem hkept
          rw [hentity'] at hfound
          refine ⟨db, hfound.1, hfound.2, ?_⟩
          intro other hother hsame
          obtain ⟨env', henv', -, rfl⟩ := Select.mem_execute hother
          rw [hsource'] at henv'
          rw [hentity'] at hsame ⊢
          exact hcoherent env'.1 (List.mem_product.mp henv').1 env henv hsame

/-- A call that shows the rows of the query of `list`, each entity once or more, and hides
soft-deleted rows, is shielded by the filter. -/
theorem keepsLive_of_readQuery {op : ReadOp Db Env Row Id} {statement : CallerStatement Db Env Row}
    (hides : repo.Hides op) (hstart : repo.FromStart statement)
    (hshows : ∀ db row, row ∈ (repo.readQuery (some statement) false).execute db →
      row ∈ (repo.readQuery (some statement) false).countSubquery.execute db →
      ∃ rows, repo.reads ⟨db, fun _ => false⟩ op = .ok rows ∧
        ∃ shown ∈ rows, repo.orm.identity shown = repo.orm.identity row ∧
          (shown = row ∨ shown ∈ (repo.readQuery (some statement) false).execute db)) :
    repo.KeepsLive true statement := by
  intro env hsatisfies hfilter
  obtain ⟨db, hfound, hcounted, hsame⟩ :=
    exists_mem_readQuery hstart hsatisfies (hfilter rfl)
  obtain ⟨rows, hrows, shown, hmem, hidentity, hshown⟩ := hshows db _ hfound hcounted
  have hlive := hides _ rows hrows shown hmem
  rcases hshown with rfl | hshown
  · exact hlive
  · rwa [hsame shown hshown hidentity] at hlive

theorem shielded_of_hides {op : ReadOp Db Env Row Id} (hstart : repo.ReadsFromStart op)
    (hides : repo.Hides op) : repo.Shielded op := by
  cases op with
  | get identity arguments => trivial
  | require identity arguments => trivial
  | exists_ criteria => trivial
  | getOne statement =>
      refine keepsLive_of_alone hides hstart fun db env hsource hsatisfies => ⟨[], ?_⟩
      rw [reads, getOne, uniqueRows_alone hstart hsource hsatisfies]
      rfl
  | getOneOrNone statement =>
      refine keepsLive_of_alone hides hstart fun db env hsource hsatisfies => ⟨[], ?_⟩
      rw [reads, getOneOrNone, uniqueRows_alone hstart hsource hsatisfies]
      rfl
  | getAll statement =>
      refine keepsLive_of_alone hides hstart fun db env hsource hsatisfies => ⟨[], ?_⟩
      rw [reads, getAll, uniqueRows_alone hstart hsource hsatisfies]
  | list statement =>
      cases statement with
      | none => trivial
      | some statement =>
          refine keepsLive_of_readQuery hides hstart fun db row hrow _ => ⟨_, rfl, ?_⟩
          have hnew : repo.orm.identity row ∉ ([] : List Id) := List.not_mem_nil
          obtain ⟨shown, hshown, hidentity⟩ := exists_mem_uniqueAfter hrow hnew
          exact ⟨shown, hshown, hidentity, .inr (mem_of_mem_uniqueScalars hshown)⟩
  | stream statement yieldPer =>
      cases statement with
      | none => trivial
      | some statement =>
          refine keepsLive_of_readQuery hides hstart.1 fun db row hrow _ =>
            ⟨_, ?_, row, hrow, rfl, .inl rfl⟩
          rw [reads, stream, if_neg (Int.not_lt.mpr hstart.2)]
  | count statement =>
      cases statement with
      | none => trivial
      | some statement =>
          exact keepsLive_of_readQuery hides hstart fun db row _ hcounted =>
            ⟨_, rfl, row, hcounted, rfl, .inl rfl⟩
  | paginateCursor lib statement sort codec cursor limit queryFingerprint =>
      obtain ⟨hstart, rfl, hlimit⟩ := hstart
      refine keepsLive_of_alone hides hstart fun db env hsource hsatisfies => ⟨[], ?_⟩
      rw [reads, paginateCursor, paginateSync_alone hlimit hstart.offset hsource hsatisfies]
      rfl
  | paginateOffset statement page limit includeTotal countStatement =>
      obtain ⟨hstart, rfl, hlimit, hcount⟩ := hstart
      refine ⟨keepsLive_of_alone hides hstart fun db env hsource hsatisfies => ?_, ?_⟩
      · obtain ⟨result, hresult, hitems⟩ := paginateOffsetSync_alone hlimit hsource hsatisfies
          repo.orm includeTotal (countStatement.map CountStatement.scalar)
        refine ⟨totalledRows ⟨db, fun _ => false⟩ statement includeTotal countStatement, ?_⟩
        rw [reads, paginateOffset, hresult, ok_bind, hitems]
        rfl
      · rintro rfl given rfl env hsatisfies
        obtain ⟨db, hsource⟩ := (hcount given rfl).holds env
        obtain ⟨result, hresult, -⟩ :=
          paginateOffsetSync_first hlimit statement.select db repo.orm true
          (some given.scalar)
        have hcounted : given.query.select.entity env ∈ given.query.execute db :=
          Select.mem_execute_of_unlimited (hcount given rfl).offset (hcount given rfl).limit hsource
            hsatisfies
        refine hides ⟨db, fun _ => false⟩ _ ?_ _ (List.mem_append_right result.items hcounted)
        rw [reads, paginateOffset, Option.map_some, hresult]
        rfl

/-- A call that is shielded hides soft-deleted rows; and one that reads from the first row on and is
not shielded returns or counts a soft-deleted row of some table. -/
theorem soft_deleted_hidden_iff (repo : Repository Db Row Id) (op : ReadOp Db Env Row Id) :
    (repo.Shielded op → repo.Hides op) ∧
      (repo.ReadsFromStart op → (repo.Hides op ↔ repo.Shielded op)) :=
  ⟨hides_of_shielded, fun hstart => ⟨shielded_of_hides hstart, hides_of_shielded⟩⟩

/-! ## A deleted customer -/

/-- The instant the customer was deleted. -/
def sampleInstant : Datetime where
  date := ⟨2024, 5, 1, by decide, by decide, by decide⟩
  clock := noon.clock
  offset := none

/-- Customers with their ids and `deleted_at`. -/
def customers : Repository (List (Nat × Option Datetime)) (Nat × Option Datetime) Nat where
  model := { name := "Customer", table := id, id := Prod.fst, deletedAt := some Prod.snd }
  orm := { getattr := fun _ _ => .ok none, identity := Prod.fst }

/-- `select(Customer)`. -/
def selectCustomers : CallerStatement (List (Nat × Option Datetime)) (Nat × Option Datetime)
    (Nat × Option Datetime) where
  select := { source := id, entity := id }
  mapped := some id

/-- `select(Customer).where(Customer.deleted_at.is_(None))`. -/
def selectLiveCustomers : CallerStatement (List (Nat × Option Datetime)) (Nat × Option Datetime)
    (Nat × Option Datetime) where
  select := selectCustomers.select.where_ fun customer => Truth.isNull customer.2
  mapped := some id

/-- `select(func.count()).select_from(Customer)`. -/
def countCustomers : CountStatement (List (Nat × Option Datetime)) (Nat × Option Datetime) where
  query := ⟨_, selectCustomers.select⟩
  aggregate rows := some rows.length

/-- The tables of a single deleted customer. -/
def deletedCustomer : ReadSession (List (Nat × Option Datetime)) (Nat × Option Datetime) where
  db := [(1, some sampleInstant)]
  locked := fun _ => false

/-- `get_all(select(Customer))` and `paginate_offset(select(Customer))` return the deleted customer,
and the total counts it; and a count statement of the caller counts it where no item is returned. -/
theorem select_shows_deleted :
    customers.reads deletedCustomer (.getAll selectCustomers) = .ok [(1, some sampleInstant)] ∧
      customers.reads deletedCustomer (.paginateOffset selectCustomers 1 50 true none) =
        .ok [(1, some sampleInstant), (1, some sampleInstant)] ∧
      customers.reads deletedCustomer
          (.paginateOffset selectLiveCustomers 1 50 true (some countCustomers)) =
        .ok [(1, some sampleInstant)] ∧
      ¬∀ op : ReadOp (List (Nat × Option Datetime)) (Nat × Option Datetime)
        (Nat × Option Datetime) Nat, customers.Hides op := by
  have hall : customers.reads deletedCustomer (.getAll selectCustomers) =
      .ok [(1, some sampleInstant)] := by
    have halone : selectCustomers.select.execute deletedCustomer.db = [(1, some sampleInstant)] :=
      Select.execute_alone rfl nofun rfl rfl
    simp only [reads, getAll, uniqueRows, halone]
    rfl
  refine ⟨hall, ?_, ?_, ?_⟩
  · have halone : selectCustomers.select.source deletedCustomer.db = [(1, some sampleInstant)] :=
      rfl
    obtain ⟨result, hresult, hitems⟩ :=
      paginateOffsetSync_alone (by decide : (1 : Int) ≤ 50 ∧ (50 : Int) ≤ 500) halone rfl
        customers.orm true none
    have hcounted : (Database.countSubquery selectCustomers.select).execute deletedCustomer.db =
        [(1, some sampleInstant)] :=
      Select.execute_alone rfl nofun rfl rfl
    rw [reads, paginateOffset, Option.map_none, hresult, ok_bind, hitems, totalledRows, hcounted]
    rfl
  · have hnone : (offsetQuery selectLiveCustomers.select 1 50 true).execute deletedCustomer.db =
        [] := by
      refine List.eq_nil_iff_forall_not_mem.mpr fun row hrow => ?_
      obtain ⟨env, hsource, hsatisfies, -⟩ := Select.mem_execute hrow
      obtain rfl := List.mem_singleton.mp hsource
      cases hsatisfies
    have hcounted : countCustomers.query.execute deletedCustomer.db = [(1, some sampleInstant)] :=
      Select.execute_alone rfl nofun rfl rfl
    obtain ⟨result, hresult, hitems⟩ := paginateOffsetSync_first
      (by decide : (1 : Int) ≤ 50 ∧ (50 : Int) ≤ 500)
      selectLiveCustomers.select deletedCustomer.db customers.orm true (some countCustomers.scalar)
    rw [hnone] at hitems
    rw [reads, paginateOffset, Option.map_some, hresult, ok_bind, hitems, totalledRows, hcounted]
    rfl
  · intro hides
    have hlive := hides (.getAll selectCustomers) deletedCustomer _ hall _ List.mem_cons_self
    cases hlive

theorem fromStart_selectCustomers : customers.FromStart selectCustomers where
  offset := rfl
  limit := rfl
  alone env := ⟨[env], rfl⟩
  withLive h := by cases h

/-- `list` hides the deleted customers of `select(Customer)`, and `get_all` does not. -/
theorem soft_deleted_hidden_iff_customers :
    customers.Hides (.list (some selectCustomers)) ∧
      ¬customers.Hides (.getAll selectCustomers) := by
  refine ⟨(soft_deleted_hidden_iff customers (.list (some selectCustomers))).1
    (keepsLive_mapped customers rfl), ?_⟩
  rw [(soft_deleted_hidden_iff customers (.getAll selectCustomers)).2 fromStart_selectCustomers]
  intro hkeeps
  have hlive := hkeeps (1, some sampleInstant) rfl fun h => by cases h
  cases hlive

end Repository

end ProdkitStorage.Database
