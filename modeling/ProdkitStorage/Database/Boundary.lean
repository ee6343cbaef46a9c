import ProdkitStorage.Database.Sorting

/-!
# The boundary is the order

The two conditions of a term, at the value of a row, are the order of the term at
this row: `after` keeps the rows that come after it and `equality` those that
agree with it, with NULL on either side.  `disjunction_alternatives` carries this
to the whole boundary.  There is none where the row has a `bool`, which a cursor
over a Boolean column brings back (`boundary_is_order_iff`).
-/

namespace ProdkitStorage.Database

open ProdkitStorage.Foundation
open ProdkitStorage.Python
open Std (OrientedCmp TransCmp)

variable {Env Row : Type}

theorem ResolvedSortTerm.transCmp_compareCells (term : ResolvedSortTerm Env Row) :
    TransCmp term.compareCells := by
  refine transCmp_placeNulls _ ?_
  cases term.direction with
  | asc => exact term.field.expression.compare_trans
  | desc => exact transCmp_descending term.field.expression.compare_trans

theorem ResolvedSortTerm.transCmp_orderBy (term : ResolvedSortTerm Env Row) :
    TransCmp term.orderBy where
  eq_swap := term.transCmp_compareCells.eq_swap
  isLE_trans := term.transCmp_compareCells.isLE_trans

/-- `after` takes every value but a `bool`. -/
theorem ResolvedSortTerm.after_isOk {term : ResolvedSortTerm Env Row} {cell : Cell} :
    (∃ condition, term.after cell = .ok condition) ↔ ∀ b, cell ≠ some (.bool b) := by
  cases cell with
  | none => exact ⟨fun _ _ => nofun, fun _ => ⟨_, rfl⟩⟩
  | some value =>
      cases value with
      | bool b =>
          refine ⟨?_, fun h => absurd rfl (h b)⟩
          rintro ⟨condition, h⟩
          cases h
      | _ => exact ⟨fun _ _ => nofun, fun _ => ⟨_, rfl⟩⟩

/-- The condition on a value that `after` takes. -/
theorem ResolvedSortTerm.after_some {term : ResolvedSortTerm Env Row} {value : PyValue}
    {condition : Env → Truth} (h : term.after (some value) = .ok condition) (env : Env) :
    condition env = .true ↔
      (term.nulls = .last ∧ term.field.expression.eval env = none) ∨
        ∃ held, term.field.expression.eval env = some held ∧
          term.field.expression.compare held value = term.direction.sought := by
  obtain ⟨comparison, hcomparison, h⟩ := bind_eq_ok.mp h
  obtain rfl := Except.ok.inj h
  have hsought : comparison env = .true ↔ ∃ held, term.field.expression.eval env = some held ∧
      term.field.expression.compare held value = term.direction.sought := by
    cases value with
    | bool b => cases hcomparison
    | _ =>
        obtain rfl := Except.ok.inj hcomparison
        simp only [Truth.compare_eq_true, Option.some.injEq, beq_iff_eq]
        constructor
        · rintro ⟨held, _, hheld, rfl, hcompare⟩
          exact ⟨held, hheld, hcompare⟩
        · rintro ⟨held, hheld, hcompare⟩
          exact ⟨held, _, hheld, rfl, hcompare⟩
  cases hnulls : term.nulls with
  | first => simp [hsought]
  | last => simp [hsought, Truth.isNull]

/-- `after` at the cell of a row keeps the rows that come after it. -/
theorem ResolvedSortTerm.after_eq_true (term : ResolvedSortTerm Env Row) {r : Env}
    {condition : Env → Truth}
    (h : term.after (term.field.expression.eval r) = .ok condition) (x : Env) :
    condition x = .true ↔ term.orderBy r x = .lt := by
  have := term.field.expression.compare_trans
  rw [orderBy, compareCells]
  cases hbound : term.field.expression.eval r with
  | none =>
      rw [hbound] at h
      obtain rfl := Except.ok.inj h
      cases hcell : term.field.expression.eval x with
      | none => cases term.nulls <;> simp [placeNulls, Truth.isNotNull, hcell]
      | some value => cases term.nulls <;> simp [placeNulls, Truth.isNotNull, hcell]
  | some bound =>
      rw [hbound] at h
      rw [after_some h]
      cases term.field.expression.eval x with
      | none => cases term.nulls <;> simp [placeNulls]
      | some value =>
          -- NULL is out of the way: the comparison of the two values decides.
          have hlt : term.field.expression.compare value bound = .gt ↔
              term.field.expression.compare bound value = .lt := OrientedCmp.gt_iff_lt
          cases term.direction <;> simp [placeNulls, descending, SortDirection.sought, hlt]

/-- `equality` at the cell of a row keeps the rows that agree with it. -/
theorem ResolvedSortTerm.equality_eq_true (term : ResolvedSortTerm Env Row) (r x : Env) :
    term.equality (term.field.expression.eval r) x = .true ↔ term.orderBy r x = .eq := by
  have := term.field.expression.compare_trans
  simp only [equality, orderBy, compareCells]
  generalize term.field.expression.eval r = bound
  generalize term.field.expression.eval x = cell
  cases bound with
  | none =>
      cases cell with
      | none => simp [placeNulls, Truth.isNull]
      | some value => cases term.nulls <;> simp [placeNulls, Truth.isNull]
  | some bound =>
      cases cell with
      | none => cases term.nulls <;> simp [placeNulls, Truth.compare]
      | some value =>
          have heq : term.field.expression.compare value bound = .eq ↔
              term.field.expression.compare bound value = .eq := OrientedCmp.eq_comm
          cases term.direction <;> simp [placeNulls, Truth.compare, descending, heq]

namespace SortPlan

/-- The order a plan asks for. -/
def order (plan : SortPlan Env Row) : Env → Env → Ordering :=
  lex (plan.terms.map ResolvedSortTerm.orderBy)

theorem transCmp_order (plan : SortPlan Env Row) : TransCmp plan.order := by
  refine transCmp_lex fun cmp hcmp => ?_
  obtain ⟨term, -, rfl⟩ := List.mem_map.mp hcmp
  exact term.transCmp_orderBy

@[simp] theorem length_evals (plan : SortPlan Env Row) (env : Env) :
    (plan.evals env).length = plan.terms.length :=
  List.length_map ..

/-- SQLAlchemy takes the values of the row for the boundary: none of them is a `bool`. -/
def Comparable (plan : SortPlan Env Row) (r : Env) : Prop :=
  ∀ term ∈ plan.terms, ∀ b, term.field.expression.eval r ≠ some (.bool b)

/-- The conditions of the terms at a row are the comparisons of the terms at this row. -/
theorem bounds_at {terms : List (ResolvedSortTerm Env Row)} {r : Env} {bounds : List (Bound Env)}
    (h : (terms.zip (terms.map fun term => term.field.expression.eval r)).mapM
      (fun (term, value) => ResolvedSortTerm.bound term value) = .ok bounds) :
    List.Forall₂ (fun bound cmp => Bound.At bound cmp r) bounds
      (terms.map ResolvedSortTerm.orderBy) := by
  rw [mapM_eq_ok] at h
  induction terms generalizing bounds with
  | nil =>
      cases h
      exact .nil
  | cons term terms ih =>
      cases h with
      | cons hbound hrest =>
          obtain ⟨after, hafter, hbound⟩ := bind_eq_ok.mp hbound
          obtain rfl := Except.ok.inj hbound
          refine .cons ⟨fun x => ?_, fun x => ?_⟩ (ih hrest)
          · exact term.after_eq_true hafter x
          · exact term.equality_eq_true r x

/-- Each term takes its value unless one of them is a `bool`. -/
theorem bounds_isOk {terms : List (ResolvedSortTerm Env Row)} {r : Env} :
    (∃ bounds, (terms.zip (terms.map fun term => term.field.expression.eval r)).mapM
      (fun (term, value) => ResolvedSortTerm.bound term value) = .ok bounds) ↔
        ∀ term ∈ terms, ∀ b, term.field.expression.eval r ≠ some (.bool b) := by
  induction terms with
  | nil => exact ⟨fun _ _ => nofun, fun _ => ⟨[], rfl⟩⟩
  | cons term terms ih =>
      rw [List.forall_mem_cons, ← ih, ← ResolvedSortTerm.after_isOk, List.map_cons,
        List.zip_cons_cons]
      simp only [mapM_eq_ok]
      constructor
      · rintro ⟨_, h⟩
        cases h with
        | cons hbound hrest =>
            obtain ⟨after, hafter, -⟩ := bind_eq_ok.mp hbound
            exact ⟨⟨after, hafter⟩, _, hrest⟩
      · rintro ⟨⟨after, hafter⟩, bounds, hbounds⟩
        exact ⟨_, .cons (bind_eq_ok.mpr ⟨after, hafter, rfl⟩) hbounds⟩

/-- The boundary at the values of a row keeps the rows that come after it. -/
theorem boundary_eq_true {plan : SortPlan Env Row} {r : Env} {condition : Env → Truth}
    (h : plan.boundary (plan.evals r) = .ok condition) (x : Env) :
    condition x = .true ↔ plan.order r x = .lt := by
  rw [boundary, if_neg (by simp)] at h
  obtain ⟨bounds, hbounds, h⟩ := bind_eq_ok.mp h
  obtain rfl := Except.ok.inj h
  rw [disjunction_alternatives (bounds_at hbounds), order]
  simp [conjunction]

/-- There is a boundary at the values of a row unless one of them is a `bool`. -/
theorem boundary_isOk {plan : SortPlan Env Row} {r : Env} :
    (∃ condition, plan.boundary (plan.evals r) = .ok condition) ↔ plan.Comparable r := by
  have hlength : ¬(plan.evals r).length ≠ plan.terms.length := by simp
  rw [boundary, if_neg hlength, Comparable, ← bounds_isOk]
  constructor
  · rintro ⟨condition, h⟩
    obtain ⟨bounds, hbounds, -⟩ := bind_eq_ok.mp h
    exact ⟨bounds, hbounds⟩
  · rintro ⟨bounds, hbounds⟩
    exact ⟨_, bind_eq_ok.mpr ⟨bounds, hbounds, rfl⟩⟩

/-- At the values of `r` there is a boundary that is true exactly on the rows strictly after `r` in
the order that `apply` emits, and false or NULL on the others, if and only if no value of `r` is a
`bool`. -/
theorem boundary_is_order_iff {Db : Type} (plan : SortPlan Env Row) (source : Db → List Env)
    (entity : Env → Row) (r : Env) :
    (∃ condition, plan.boundary (plan.evals r) = .ok condition ∧ ∀ x,
      (condition x = .true ↔ lex (plan.apply { source, entity }).orderBy r x = .lt) ∧
      (lex (plan.apply { source, entity }).orderBy r x ≠ .lt →
        condition x = .false ∨ condition x = .unknown)) ↔
      plan.Comparable r := by
  rw [← boundary_isOk]
  constructor
  · rintro ⟨condition, hboundary, -⟩
    exact ⟨condition, hboundary⟩
  · rintro ⟨condition, hboundary⟩
    refine ⟨condition, hboundary, fun x => ⟨boundary_eq_true hboundary x, fun hbefore => ?_⟩⟩
    cases hx : condition x with
    | false => exact .inl rfl
    | unknown => exact .inr rfl
    | true => exact absurd ((boundary_eq_true hboundary x).mp hx) hbefore

/-! ## Rows with a flag -/

/-- A Boolean column. -/
def activeField : SortField Bool Bool where
  name := "active"
  expression :=
    { key := some "active"
      type := .boolean
      nullable := false
      eval := fun active => some (.bool active)
      compare := compareOn fun
        | .bool active => if active then (1 : Int) else 0
        | _ => 0
      compare_trans := inferInstance }
  accessor := none
  defaultNulls := .last
  nullable := false
  unique := false
  name_public := by decide

/-- Rows by their flag. -/
def activePlan : SortPlan Bool Bool := ⟨[⟨activeField, .asc, .last⟩], ""⟩

/-- At a row without the flag there is no boundary that is true of a row with it, which comes after
it. -/
theorem boolean_has_no_boundary :
    activePlan.boundary (activePlan.evals false) = .error (.argumentError onlyEquality) ∧
      lex (activePlan.apply { source := fun rows : List Bool => rows, entity := id }).orderBy false
        true = .lt ∧
      ¬∃ condition, activePlan.boundary (activePlan.evals false) = .ok condition ∧
        condition true = .true := by
  refine ⟨rfl, by decide, ?_⟩
  rintro ⟨condition, hboundary, -⟩
  cases hboundary

end SortPlan

end ProdkitStorage.Database
