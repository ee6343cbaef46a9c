import Mathlib.Data.List.Nodup
import ProdkitStorage.Database.Filtering

/-!
# What a filter selects

`asks` says in two truth values what an operator asks of a cell: a comparison holds of no NULL,
`NOT IN` of a list with a NULL holds of nothing, and the text operators look for the very
characters they were given.  `Admits` says which terms a registry lets through, given which
values go with which columns.

A request returns rows exactly when each of its terms is admitted, and the rows are those of
the statement of which every term holds.
-/

namespace ProdkitStorage.Database

open ProdkitStorage.Foundation
open ProdkitStorage.Python

variable {Db Env Row : Type}

/-! ## What an operator asks -/

/-- What a comparison operator asks of a cell. -/
def asksComparison (expression : Column Env) (comparison : Comparison) (value : FilterValue)
    (cell : Cell) : Bool :=
  match value with
  | .scalar none => cell.isNone == (comparison == .eq)
  | .scalar (some value) => cell.any fun held => comparison.holds (expression.compare held value)
  | _ => false

/-- What a text operator asks of a cell. -/
def asksText (holds : List Char → List Char → Bool) (value : FilterValue) (cell : Cell) : Bool :=
  match value with
  | .scalar (some (.str sought)) =>
      (storedText cell).any fun text => holds sought.toList text.toList
  | _ => false

/-- What an operator asks of a cell. -/
def asks (expression : Column Env) (operator : FilterOperator) (value : FilterValue)
    (cell : Cell) : Bool :=
  match operator with
  | .eq => asksComparison expression .eq value cell
  | .ne => asksComparison expression .ne value cell
  | .lt => asksComparison expression .lt value cell
  | .lte => asksComparison expression .lte value cell
  | .gt => asksComparison expression .gt value cell
  | .gte => asksComparison expression .gte value cell
  | .in_ =>
      match value with
      | .sequence values => cell.any fun held =>
          values.any fun listed => listed.any fun v => expression.compare held v == .eq
      | _ => false
  | .notIn =>
      match value with
      | .sequence values => values.isEmpty || cell.any fun held =>
          values.all fun listed => listed.any fun v => expression.compare held v != .eq
      | _ => false
  | .isNull =>
      match value with
      | .scalar (some (.bool null)) => cell.isNone == null
      | _ => false
  | .contains => asksText (fun sought text => sought <:+: text) value cell
  | .startsWith => asksText (fun sought text => sought <+: text) value cell
  | .endsWith => asksText (fun sought text => sought <:+ text) value cell

/-- SQLAlchemy has the comparison with the value: `None`, `True` and `False` have no order. -/
def hasComparison (comparison : Comparison) : Cell → Bool
  | none => comparison == .eq || comparison == .ne
  | some (.bool _) => comparison == .eq || comparison == .ne
  | some _ => true

/-- The value is one the column can be compared with. -/
def takesValue (operands : Operands) (expression : Column Env) (comparison : Comparison) :
    FilterValue → Bool
  | .scalar value =>
      hasComparison comparison value &&
        value.all (operands.compares expression.type comparison)
  | _ => false

/-- The value is a list of what the column can be looked up in. -/
def takesList (operands : Operands) (expression : Column Env) : FilterValue → Bool
  | .sequence values => values.all fun listed => listed.all (operands.lists expression.type)
  | _ => false

/-- The value is a text that the column can be searched for. -/
def takesText (operands : Operands) (expression : Column Env) : FilterValue → Bool
  | .scalar (some (.str text)) => operands.searches expression.type (autoescape text)
  | _ => false

/-- The value is one the operator takes, and it goes with the column. -/
def fits (operands : Operands) (expression : Column Env) (operator : FilterOperator)
    (value : FilterValue) : Bool :=
  match operator with
  | .eq => takesValue operands expression .eq value
  | .ne => takesValue operands expression .ne value
  | .lt => takesValue operands expression .lt value
  | .lte => takesValue operands expression .lte value
  | .gt => takesValue operands expression .gt value
  | .gte => takesValue operands expression .gte value
  | .in_ => takesList operands expression value
  | .notIn => takesList operands expression value
  | .isNull =>
      match value with
      | .scalar (some (.bool _)) => true
      | _ => false
  | .contains => takesText operands expression value
  | .startsWith => takesText operands expression value
  | .endsWith => takesText operands expression value

namespace FilterRegistry

/-- The registry lets the term through: the field is registered, it allows the operator, and the
value fits. -/
def Admits (registry : FilterRegistry Env) (operands : Operands) (term : FilterTerm) : Prop :=
  ∃ field ∈ registry.fields, field.name = term.field ∧ term.operator ∈ field.operators ∧
    fits operands field.expression term.operator term.value = true

/-- The term holds of the row. -/
def holds (registry : FilterRegistry Env) (env : Env) (term : FilterTerm) : Bool :=
  match registry.field? term.field with
  | none => false
  | some field => asks field.expression term.operator term.value (field.expression.eval env)

/-- The statement, restricted to the rows of which every term holds. -/
def restrict (registry : FilterRegistry Env) (statement : Select Db Env Row)
    (terms : List FilterTerm) : Select Db Env Row :=
  statement.where_ fun env => Truth.ofBool (terms.all (registry.holds env))

end FilterRegistry

/-! ## One operator -/

theorem replaceChar_flatMap (c : Char) (by_ : List Char) (cs : List Char)
    (f : Char → List Char) :
    replaceChar c by_ (cs.flatMap f) = cs.flatMap fun d => replaceChar c by_ (f d) := by
  simp [replaceChar, List.flatMap_assoc]

/-- The three replacements put the escape before every character with a meaning. -/
theorem autoescape_eq (value : String) : autoescape value = likeWildcards.quote value.toList := by
  have hfirst : replaceChar '/' ['/', '/'] value.toList =
      value.toList.flatMap fun d => if d = '/' then ['/', '/'] else [d] := rfl
  rw [autoescape, hfirst, replaceChar_flatMap, replaceChar_flatMap, Wildcards.quote]
  refine List.flatMap_congr ?_
  intro d _
  by_cases hescape : d = '/'
  · subst hescape
    decide
  · by_cases hmany : d = '%'
    · subst hmany
      decide
    · by_cases hone : d = '_'
      · subst hone
        decide
      · simp [replaceChar, likeWildcards, hescape, hmany, hone]

theorem truth_any_eq_true {conditions : List Truth} :
    Truth.any conditions = .true ↔ .true ∈ conditions := by
  induction conditions with
  | nil => simp
  | cons condition conditions ih =>
      rw [Truth.any_cons, Truth.or_eq_true, ih, List.mem_cons, eq_comm]

/-- The criterion of a comparison, on a cell. -/
theorem truth_compare {comparison : Comparison} {expression : Column Env} {value : PyValue}
    {env : Env} :
    (Criterion.compare comparison expression value).truth env = .true ↔
      (expression.eval env).any (fun held => comparison.holds (expression.compare held value)) =
        true := by
  cases hcell : expression.eval env with
  | none => simp [Criterion.truth, Truth.compare, hcell]
  | some held => simp [Criterion.truth, Truth.compare, hcell]

theorem compareColumn_truth {comparison : Comparison} {expression : Column Env}
    {value : FilterValue} {criterion : Criterion Env}
    (h : compareColumn comparison expression value = .ok criterion) (env : Env) :
    criterion.truth env = .true ↔
      asksComparison expression comparison value (expression.eval env) = true := by
  cases value with
  | scalar value =>
      cases value with
      | none =>
          cases comparison with
          | eq =>
              obtain rfl := Except.ok.inj h
              simp [Criterion.truth, Truth.isNull, asksComparison]
          | ne =>
              obtain rfl := Except.ok.inj h
              cases hcell : expression.eval env with
              | none => simp [Criterion.truth, Truth.isNotNull, asksComparison, hcell]
              | some held => simp [Criterion.truth, Truth.isNotNull, asksComparison, hcell]
          | lt => cases h
          | lte => cases h
          | gt => cases h
          | gte => cases h
      | some value =>
          have hcriterion : criterion = .compare comparison expression value := by
            cases value with
            | bool b => cases comparison <;> first | exact (Except.ok.inj h).symm | cases h
            | _ => exact (Except.ok.inj h).symm
          rw [hcriterion, truth_compare]
          rfl
  | sequence values =>
      obtain rfl := Except.ok.inj h
      simp [Criterion.truth, asksComparison]
  | foreign =>
      obtain rfl := Except.ok.inj h
      simp [Criterion.truth, asksComparison]

theorem truth_in {expression : Column Env} {values : List Cell} {env : Env} :
    (Criterion.in_ expression values).truth env = .true ↔
      asks expression .in_ (.sequence values) (expression.eval env) = true := by
  simp only [Criterion.truth, truth_any_eq_true, List.mem_map, asks]
  cases expression.eval env with
  | none => simp [Truth.compare]
  | some held =>
      simp only [Option.any_some, List.any_eq_true]
      constructor
      · rintro ⟨listed, hlisted, htruth⟩
        obtain ⟨_, v, hheld, rfl, heq⟩ := Truth.compare_eq_true.mp htruth
        obtain rfl := Option.some.inj hheld
        exact ⟨some v, hlisted, heq⟩
      · rintro ⟨listed, hlisted, heq⟩
        cases listed with
        | none => cases heq
        | some v => exact ⟨some v, hlisted, Truth.compare_eq_true.mpr ⟨held, v, rfl, rfl, heq⟩⟩

theorem truth_notIn {expression : Column Env} {values : List Cell} {env : Env} :
    (Criterion.notIn expression values).truth env = .true ↔
      asks expression .notIn (.sequence values) (expression.eval env) = true := by
  simp only [Criterion.truth, Truth.all_eq_true, List.mem_map, forall_exists_index, and_imp,
    forall_apply_eq_imp_iff₂, asks, Bool.or_eq_true, List.isEmpty_iff]
  cases expression.eval env with
  | none =>
      cases values with
      | nil => simp
      | cons listed values => simpa [Truth.compare] using ⟨listed, fun h => absurd rfl h⟩
  | some held =>
      simp only [Option.any_some, List.all_eq_true]
      constructor
      · intro h
        refine .inr fun listed hlisted => ?_
        obtain ⟨_, v, hheld, rfl, hne⟩ := Truth.compare_eq_true.mp (h listed hlisted)
        obtain rfl := Option.some.inj hheld
        exact hne
      · rintro (rfl | h) listed hlisted
        · cases hlisted
        · have hne := h listed hlisted
          cases listed with
          | none => cases hne
          | some v => exact Truth.compare_eq_true.mpr ⟨held, v, rfl, rfl, hne⟩

/-- A text criterion, by what its pattern matches. -/
theorem truth_like {expression : Column Env} {before bound after : List Char} {sought : String}
    {holds : List Char → List Char → Bool}
    (hmatches : ∀ text, likeWildcards.Matches (before ++ (bound ++ after)) text ↔
      holds sought.toList text = true) {env : Env} :
    (Criterion.like expression before bound after).truth env = .true ↔
      asksText holds (.scalar (some (.str sought))) (expression.eval env) = true := by
  simp only [Criterion.truth, likeTruth, asksText]
  cases storedText (expression.eval env) with
  | none => simp
  | some text => simp [hmatches]

theorem requireString_eq_ok {value : FilterValue} {operator : FilterOperator} {text : String}
    (h : requireString value operator = .ok text) : value = .scalar (some (.str text)) := by
  unfold requireString at h
  split at h
  · rw [Except.ok.inj h]
  · cases h

theorem requireSequence_eq_ok {value : FilterValue} {operator : FilterOperator}
    {values : List Cell} (h : requireSequence value operator = .ok values) :
    value = .sequence values := by
  unfold requireSequence at h
  split at h
  · rw [Except.ok.inj h]
  · cases h

/-- The criterion of an operator is true of the cells the operator asks for. -/
theorem resolveOperator_truth {expression : Column Env} {operator : FilterOperator}
    {value : FilterValue} {criterion : Criterion Env}
    (h : resolveOperator expression operator value = .ok criterion) (env : Env) :
    criterion.truth env = .true ↔
      asks expression operator value (expression.eval env) = true := by
  cases operator with
  | eq => exact compareColumn_truth h env
  | ne => exact compareColumn_truth h env
  | lt => exact compareColumn_truth h env
  | lte => exact compareColumn_truth h env
  | gt => exact compareColumn_truth h env
  | gte => exact compareColumn_truth h env
  | in_ =>
      obtain ⟨values, hvalues, h⟩ := bind_eq_ok.mp h
      obtain rfl := Except.ok.inj h
      rw [requireSequence_eq_ok hvalues]
      exact truth_in
  | notIn =>
      obtain ⟨values, hvalues, h⟩ := bind_eq_ok.mp h
      obtain rfl := Except.ok.inj h
      rw [requireSequence_eq_ok hvalues]
      exact truth_notIn
  | isNull =>
      simp only [resolveOperator] at h
      split at h
      · obtain rfl := Except.ok.inj h
        simp [Criterion.truth, Truth.isNull, asks]
      · obtain rfl := Except.ok.inj h
        cases hcell : expression.eval env with
        | none => simp [Criterion.truth, Truth.isNotNull, asks, hcell]
        | some held => simp [Criterion.truth, Truth.isNotNull, asks, hcell]
      · cases h
  | contains =>
      obtain ⟨text, htext, h⟩ := bind_eq_ok.mp h
      obtain rfl := Except.ok.inj h
      rw [requireString_eq_ok htext, autoescape_eq]
      simp only [asks]
      exact truth_like fun t => Wildcards.matches_around.trans decide_eq_true_iff.symm
  | startsWith =>
      obtain ⟨text, htext, h⟩ := bind_eq_ok.mp h
      obtain rfl := Except.ok.inj h
      rw [requireString_eq_ok htext, autoescape_eq]
      simp only [asks]
      exact truth_like fun t => Wildcards.matches_before.trans decide_eq_true_iff.symm
  | endsWith =>
      obtain ⟨text, htext, h⟩ := bind_eq_ok.mp h
      obtain rfl := Except.ok.inj h
      rw [requireString_eq_ok htext, autoescape_eq]
      simp only [asks]
      refine truth_like fun t => ?_
      rw [List.append_nil]
      exact Wildcards.matches_after.trans decide_eq_true_iff.symm

theorem compareColumn_wellTyped {operands : Operands} {comparison : Comparison}
    {expression : Column Env} {value : FilterValue} :
    (∃ criterion, compareColumn comparison expression value = .ok criterion ∧
      criterion.wellTyped operands = true) ↔
      takesValue operands expression comparison value = true := by
  cases value with
  | scalar value =>
      cases value with
      | none =>
          cases comparison <;> simp [compareColumn, compareColumn.constant, takesValue,
            hasComparison, Criterion.wellTyped]
      | some value =>
          cases value with
          | bool b =>
              cases comparison <;> simp [compareColumn, compareColumn.constant, takesValue,
                hasComparison, Criterion.wellTyped]
          | _ => simp [compareColumn, takesValue, hasComparison, Criterion.wellTyped]
  | sequence values => simp [compareColumn, takesValue, Criterion.wellTyped]
  | foreign => simp [compareColumn, takesValue, Criterion.wellTyped]

theorem list_wellTyped {operands : Operands} {expression : Column Env}
    {operator : FilterOperator} {value : FilterValue}
    {listed : Column Env → List Cell → Criterion Env}
    (hlisted : ∀ values, (listed expression values).wellTyped operands =
      values.all fun cell => cell.all (operands.lists expression.type)) :
    (∃ criterion, (do return listed expression (← requireSequence value operator)) =
        (.ok criterion : Except FilterError (Criterion Env)) ∧
      criterion.wellTyped operands = true) ↔ takesList operands expression value = true := by
  cases value with
  | sequence values => simp [requireSequence, takesList, hlisted]
  | scalar value => simp [requireSequence, takesList]
  | foreign => simp [requireSequence, takesList]

theorem like_wellTyped {operands : Operands} {expression : Column Env}
    {operator : FilterOperator} {value : FilterValue} (before after : List Char) :
    (∃ criterion, (do
          return .like expression before (autoescape (← requireString value operator)) after) =
        (.ok criterion : Except FilterError (Criterion Env)) ∧
      criterion.wellTyped operands = true) ↔ takesText operands expression value = true := by
  rcases value with (_ | value) | _ | _
  · simp [requireString, takesText]
  · cases value with
    | str text => simp [requireString, takesText, Criterion.wellTyped]
    | _ => simp [requireString, takesText]
  · simp [requireString, takesText]
  · simp [requireString, takesText]

/-- The criterion of an operator runs when the value fits. -/
theorem resolveOperator_wellTyped {operands : Operands} {expression : Column Env}
    {operator : FilterOperator} {value : FilterValue} :
    (∃ criterion, resolveOperator expression operator value = .ok criterion ∧
      criterion.wellTyped operands = true) ↔
      fits operands expression operator value = true := by
  cases operator with
  | eq => exact compareColumn_wellTyped
  | ne => exact compareColumn_wellTyped
  | lt => exact compareColumn_wellTyped
  | lte => exact compareColumn_wellTyped
  | gt => exact compareColumn_wellTyped
  | gte => exact compareColumn_wellTyped
  | in_ => exact list_wellTyped fun values => rfl
  | notIn => exact list_wellTyped fun values => rfl
  | isNull =>
      rcases value with (_ | value) | _ | _
      · simp [resolveOperator, fits]
      · cases value with
        | bool b => cases b <;> simp [resolveOperator, fits, Criterion.wellTyped]
        | _ => simp [resolveOperator, fits]
      · simp [resolveOperator, fits]
      · simp [resolveOperator, fits]
  | contains => exact like_wellTyped ['%'] ['%']
  | startsWith => exact like_wellTyped [] ['%']
  | endsWith => exact like_wellTyped ['%'] []

/-! ## A request -/

namespace FilterRegistry

theorem field?_eq_some {registry : FilterRegistry Env} {name : String} {field : FilterField Env} :
    registry.field? name = some field ↔ field ∈ registry.fields ∧ field.name = name := by
  constructor
  · intro h
    exact ⟨List.mem_of_find?_eq_some h, by simpa using List.find?_some h⟩
  · rintro ⟨hmem, rfl⟩
    cases hfind : registry.field? field.name with
    | none => exact absurd (List.find?_eq_none.mp hfind field hmem) (by simp)
    | some other =>
        have hname : other.name = field.name := by simpa using List.find?_some hfind
        rw [List.inj_on_of_nodup_map registry.distinct (List.mem_of_find?_eq_some hfind) hmem hname]

/-- The criterion of an admitted term is true of the rows it holds of. -/
theorem resolveTerm_truth {registry : FilterRegistry Env} {term : FilterTerm}
    {criterion : Criterion Env} (h : registry.resolveTerm term = .ok criterion) (env : Env) :
    criterion.truth env = .true ↔ registry.holds env term = true := by
  unfold resolveTerm at h
  unfold holds
  cases hfield : registry.field? term.field with
  | none => simp [hfield] at h
  | some field =>
      simp only [hfield] at h ⊢
      split at h
      · exact resolveOperator_truth h env
      · cases h

/-- A term is admitted when it has a criterion that runs. -/
theorem resolveTerm_wellTyped {registry : FilterRegistry Env} {operands : Operands}
    {term : FilterTerm} :
    (∃ criterion, registry.resolveTerm term = .ok criterion ∧
      criterion.wellTyped operands = true) ↔ registry.Admits operands term := by
  constructor
  · rintro ⟨criterion, h, htyped⟩
    unfold resolveTerm at h
    cases hfield : registry.field? term.field with
    | none => simp [hfield] at h
    | some field =>
        obtain ⟨hmem, hname⟩ := field?_eq_some.mp hfield
        simp only [hfield] at h
        split at h
        · next hoperator =>
            exact ⟨field, hmem, hname, hoperator, resolveOperator_wellTyped.mp ⟨_, h, htyped⟩⟩
        · cases h
  · rintro ⟨field, hmem, hname, hoperator, hfits⟩
    obtain ⟨criterion, h, htyped⟩ := resolveOperator_wellTyped.mpr hfits
    refine ⟨criterion, ?_, htyped⟩
    rw [resolveTerm, field?_eq_some.mpr ⟨hmem, hname⟩]
    simp only [if_pos hoperator, h]

/-- The criteria of a request, one for each term, are true of the rows every term holds of. -/
theorem resolve_truth {registry : FilterRegistry Env} {terms : List FilterTerm}
    {criteria : List (Criterion Env)} (h : registry.resolve terms = .ok criteria) (env : Env) :
    (∀ criterion ∈ criteria, criterion.truth env = .true) ↔
      terms.all (registry.holds env) = true := by
  rw [resolve, mapM_eq_ok] at h
  induction h with
  | nil => simp
  | cons hterm _ ih => simp [resolveTerm_truth hterm env, ih]

theorem resolve_wellTyped {registry : FilterRegistry Env} {operands : Operands}
    {terms : List FilterTerm} :
    (∃ criteria, registry.resolve terms = .ok criteria ∧
      criteria.all (Criterion.wellTyped operands) = true) ↔
      ∀ term ∈ terms, registry.Admits operands term := by
  induction terms with
  | nil => simp [resolve]
  | cons term terms ih =>
      rw [List.forall_mem_cons, ← ih, ← resolveTerm_wellTyped]
      simp only [resolve, mapM_eq_ok]
      constructor
      · rintro ⟨criteria, hall, htyped⟩
        obtain _ | ⟨hterm, hterms⟩ := hall
        simp only [List.all_cons, Bool.and_eq_true] at htyped
        exact ⟨⟨_, hterm, htyped.1⟩, _, hterms, htyped.2⟩
      · rintro ⟨⟨criterion, hterm, htyped⟩, criteria, hterms, htypeds⟩
        exact ⟨criterion :: criteria, .cons hterm hterms, by simp [htyped, htypeds]⟩

/-- What a statement returns depends on its criteria through the environments they keep. -/
theorem execute_congr {statement : Select Db Env Row} {criteria criteria' : List (Env → Truth)}
    (h : ∀ env, (∀ condition ∈ criteria, condition env = .true) ↔
      ∀ condition ∈ criteria', condition env = .true) (db : Db) :
    Select.execute { statement with criteria := criteria } db =
      Select.execute { statement with criteria := criteria' } db := by
  have hkept : Select.kept { statement with criteria := criteria } db =
      Select.kept { statement with criteria := criteria' } db := by
    refine List.filter_congr fun env _ => ?_
    rw [Bool.eq_iff_iff, Select.satisfies_iff, Select.satisfies_iff]
    exact h env
  simp only [Select.execute, Select.ordered, hkept]
  rfl

theorem foldl_where (statement : Select Db Env Row) (criteria : List (Criterion Env)) :
    criteria.foldl (fun statement criterion => statement.where_ criterion.truth) statement =
      { statement with criteria := statement.criteria ++ criteria.map Criterion.truth } := by
  induction criteria generalizing statement with
  | nil => simp
  | cons criterion criteria ih =>
      rw [List.foldl_cons, ih]
      simp [Select.where_]

/-- The statement with the criteria of a request returns what the restricted one does. -/
theorem execute_apply {registry : FilterRegistry Env} {statement filtered : Select Db Env Row}
    {terms : List FilterTerm} (h : registry.apply statement terms = .ok filtered) (db : Db) :
    filtered.execute db = (registry.restrict statement terms).execute db := by
  obtain ⟨criteria, hcriteria, h⟩ := bind_eq_ok.mp h
  obtain rfl := Except.ok.inj h
  rw [foldl_where]
  refine execute_congr (fun env => ?_) db
  simp only [List.mem_append, List.mem_map, List.mem_singleton, or_imp, forall_and, forall_eq,
    forall_exists_index, and_imp, forall_apply_eq_imp_iff₂, Truth.ofBool_eq_true,
    resolve_truth hcriteria env]

/-- A request returns rows when each of its terms is admitted, those every term holds of. -/
theorem rows_eq_ok {registry : FilterRegistry Env} {operands : Operands}
    {statement : Select Db Env Row} {terms : List FilterTerm} {db : Db} {rows : List Row} :
    registry.rows operands statement terms db = .ok rows ↔
      (∀ term ∈ terms, registry.Admits operands term) ∧
        rows = (registry.restrict statement terms).execute db := by
  rw [← resolve_wellTyped]
  constructor
  · intro h
    obtain ⟨criteria, hcriteria, h⟩ := bind_eq_ok.mp h
    obtain ⟨filtered, hfiltered, h⟩ := bind_eq_ok.mp h
    split at h
    · next htyped =>
        obtain rfl := Except.ok.inj h
        exact ⟨⟨criteria, hcriteria, htyped⟩, execute_apply hfiltered db⟩
    · cases h
  · rintro ⟨⟨criteria, hcriteria, htyped⟩, rfl⟩
    have hfiltered : registry.apply statement terms = .ok _ :=
      bind_eq_ok.mpr ⟨criteria, hcriteria, rfl⟩
    rw [rows, hcriteria, ok_bind, hfiltered, ok_bind, if_pos htyped, execute_apply hfiltered db]
    rfl

/-- Two requests for the same terms restrict a statement to the same rows. -/
theorem execute_restrict_congr {registry : FilterRegistry Env} {statement : Select Db Env Row}
    {terms others : List FilterTerm} (h : ∀ term, term ∈ terms ↔ term ∈ others) (db : Db) :
    (registry.restrict statement terms).execute db =
      (registry.restrict statement others).execute db := by
  refine execute_congr (fun env => ?_) db
  simp only [List.mem_append, List.mem_singleton, or_imp, forall_and, forall_eq,
    Truth.ofBool_eq_true, List.all_eq_true, h]

end FilterRegistry

end ProdkitStorage.Database
