import ProdkitStorage.Foundation.Ordering
import ProdkitStorage.Foundation.Truth

/-!
# Select statements

A `SELECT` of one entity.  Its `FROM` clause yields environments, one for each
combination of joined rows; its criteria, order, offset and limit speak of
environments, and each environment that is left shows an entity.

`execute` sorts with a stable sort, and the environments may come from the `FROM`
clause in any order, so rows the order does not tell apart may come in any order.
-/

namespace ProdkitStorage.Foundation

open Std (TransCmp)

/-- A `SELECT` statement over databases `Db`. -/
structure Select (Db Env Row : Type) where
  source : Db → List Env
  criteria : List (Env → Truth) := []
  orderBy : List (Env → Env → Ordering) := []
  offset : Option Nat := none
  limit : Option Nat := none
  entity : Env → Row

namespace Select

variable {Db Env Row : Type}

/-- `statement.where(condition)`. -/
def where_ (statement : Select Db Env Row) (condition : Env → Truth) : Select Db Env Row :=
  { statement with criteria := statement.criteria ++ [condition] }

/-- `statement.order_by(*comparisons)`, which adds to the order that is there. -/
def addOrder (statement : Select Db Env Row) (comparisons : List (Env → Env → Ordering)) :
    Select Db Env Row :=
  { statement with orderBy := statement.orderBy ++ comparisons }

/-- `statement.limit(count)`. -/
def withLimit (statement : Select Db Env Row) (count : Nat) : Select Db Env Row :=
  { statement with limit := some count }

/-- `statement.offset(count)`. -/
def withOffset (statement : Select Db Env Row) (count : Nat) : Select Db Env Row :=
  { statement with offset := some count }

/-- Every criterion is true. -/
def satisfies (statement : Select Db Env Row) (env : Env) : Bool :=
  Truth.all (statement.criteria.map fun condition => condition env) == .true

/-- The environments the criteria keep. -/
def kept (statement : Select Db Env Row) (db : Db) : List Env :=
  (statement.source db).filter statement.satisfies

/-- The environments in order. -/
def ordered (statement : Select Db Env Row) (db : Db) : List Env :=
  sortBy (lex statement.orderBy) (statement.kept db)

/-- The part of a list that `OFFSET` and `LIMIT` leave. -/
def window (statement : Select Db Env Row) (envs : List Env) : List Env :=
  let rest := envs.drop (statement.offset.getD 0)
  match statement.limit with
  | none => rest
  | some count => rest.take count

/-- The rows of the result. -/
def execute (statement : Select Db Env Row) (db : Db) : List Row :=
  (statement.window (statement.ordered db)).map statement.entity

/-- The rows in order, before OFFSET and LIMIT. -/
def unwindowed (statement : Select Db Env Row) (db : Db) : List Row :=
  (statement.ordered db).map statement.entity

/-- OFFSET and LIMIT leave no row out. -/
def KeepsAll (statement : Select Db Env Row) (db : Db) : Prop :=
  statement.window (statement.ordered db) = statement.ordered db

theorem satisfies_iff {statement : Select Db Env Row} {env : Env} :
    statement.satisfies env = true ↔
      ∀ condition ∈ statement.criteria, condition env = .true := by
  simp [satisfies, Truth.all_eq_true]

theorem satisfies_where {statement : Select Db Env Row} {condition : Env → Truth} {env : Env} :
    (statement.where_ condition).satisfies env = true ↔
      statement.satisfies env = true ∧ condition env = .true := by
  simp only [satisfies_iff, where_, List.mem_append, List.mem_singleton]
  constructor
  · intro h
    exact ⟨fun c hc => h c (.inl hc), h condition (.inr rfl)⟩
  · rintro ⟨h, hc⟩ c (hmem | rfl)
    · exact h c hmem
    · exact hc

theorem mem_kept {statement : Select Db Env Row} {db : Db} {env : Env} :
    env ∈ statement.kept db ↔ env ∈ statement.source db ∧ statement.satisfies env = true :=
  List.mem_filter

theorem mem_ordered {statement : Select Db Env Row} {db : Db} {env : Env} :
    env ∈ statement.ordered db ↔ env ∈ statement.kept db :=
  mem_sortBy

theorem kept_where {statement : Select Db Env Row} {condition : Env → Truth} {db : Db} :
    (statement.where_ condition).kept db =
      (statement.kept db).filter fun env => condition env == .true := by
  have hpoint : ∀ env, (statement.where_ condition).satisfies env =
      (statement.satisfies env && condition env == .true) := by
    intro env
    rw [Bool.eq_iff_iff, satisfies_where]
    simp
  rw [kept, kept, List.filter_filter]
  refine List.filter_congr ?_
  intro env _
  rw [hpoint, Bool.and_comm]

/-- A row of the result is the entity of an environment the criteria keep. -/
theorem mem_execute {statement : Select Db Env Row} {db : Db} {row : Row}
    (h : row ∈ statement.execute db) :
    ∃ env ∈ statement.source db, statement.satisfies env = true ∧ statement.entity env = row := by
  obtain ⟨env, henv, hrow⟩ := List.mem_map.mp h
  have hordered : env ∈ statement.ordered db := by
    unfold window at henv
    split at henv
    · exact List.mem_of_mem_drop henv
    · exact List.mem_of_mem_drop (List.mem_of_mem_take henv)
  obtain ⟨hsource, hsatisfies⟩ := mem_kept.mp (mem_ordered.mp hordered)
  exact ⟨env, hsource, hsatisfies, hrow⟩

/-- Without an offset and a limit every environment the criteria keep is in the result. -/
theorem mem_execute_of_unlimited {statement : Select Db Env Row} {db : Db} {env : Env}
    (hoffset : statement.offset = none) (hlimit : statement.limit = none)
    (hsource : env ∈ statement.source db) (hsatisfies : statement.satisfies env = true) :
    statement.entity env ∈ statement.execute db := by
  refine List.mem_map.mpr ⟨env, ?_, rfl⟩
  rw [window, hoffset, hlimit]
  exact mem_ordered.mpr (mem_kept.mpr ⟨hsource, hsatisfies⟩)

/-- A statement with a limit has no more rows. -/
theorem length_execute_withLimit {statement : Select Db Env Row} {db : Db} {count : Nat} :
    ((statement.withLimit count).execute db).length ≤ count := by
  rw [execute, List.length_map, window]
  exact List.length_take_le _ _

/-- A statement that starts at the first row shows the only environment there is. -/
theorem execute_alone {statement : Select Db Env Row} {db : Db} {env : Env}
    (hoffset : statement.offset.getD 0 = 0) (hlimit : statement.limit ≠ some 0)
    (hsource : statement.source db = [env]) (hsatisfies : statement.satisfies env = true) :
    statement.execute db = [statement.entity env] := by
  have hkept : statement.kept db = [env] := by
    rw [kept, hsource, List.filter_cons_of_pos hsatisfies, List.filter_nil]
  have hordered : statement.ordered db = [env] := by
    rw [ordered, hkept, sortBy, List.mergeSort_singleton]
  rw [execute, hordered, window, hoffset, List.drop_zero]
  cases hcount : statement.limit with
  | none => rfl
  | some count =>
      cases count with
      | zero => exact absurd hcount hlimit
      | succ count => simp

/-- How many rows OFFSET and LIMIT leave depends on the number of rows. -/
theorem length_window_congr {statement : Select Db Env Row} {envs others : List Env}
    (h : envs.length = others.length) :
    (statement.window envs).length = (statement.window others).length := by
  unfold window
  cases statement.limit with
  | none => simp [h]
  | some count => simp [h]

theorem window_sublist (statement : Select Db Env Row) (envs : List Env) :
    (statement.window envs).Sublist envs := by
  unfold window
  cases statement.limit with
  | none => exact List.drop_sublist _ _
  | some count => exact (List.take_sublist _ _).trans (List.drop_sublist _ _)

theorem keepsAll_of_none {statement : Select Db Env Row} (hoffset : statement.offset = none)
    (hlimit : statement.limit = none) (db : Db) : statement.KeepsAll db := by
  simp [KeepsAll, window, hoffset, hlimit]

theorem KeepsAll.execute_eq {statement : Select Db Env Row} {db : Db}
    (h : statement.KeepsAll db) : statement.execute db = statement.unwindowed db := by
  rw [execute, h, unwindowed]

/-- A result with all the rows left none out. -/
theorem keepsAll_of_length {statement : Select Db Env Row} {db : Db}
    (h : (statement.execute db).length = (statement.unwindowed db).length) :
    statement.KeepsAll db := by
  rw [execute, unwindowed, List.length_map, List.length_map] at h
  exact (statement.window_sublist _).eq_of_length h

end Select

end ProdkitStorage.Foundation
