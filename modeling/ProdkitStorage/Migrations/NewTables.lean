import ProdkitStorage.Migrations.Runs
import ProdkitStorage.Migrations.Visits

/-!
# The exemption of new tables

An operation on a table of `created_tables` is not reported.  The set holds names, in the order
of the text, whatever way a run takes: `exemption_sound_iff` says when each run that comes to an
exempted call has created the table before.
-/

namespace ProdkitStorage.Migrations

open Foundation Foundation.Behaviour

/-! ## What the scanner suppresses -/

section Scanner

variable (upper : String → String)

/-- The scanner comes to the call and reports nothing, and would report something if no table
were in `created_tables`. -/
def Suppressed (body : List Stmt) (call : Call) : Prop :=
  ∃ before autocommit after, visits body false = before ++ (call, autocommit) :: after ∧
    (scanCall upper call autocommit (scanVisits upper before ⟨[], []⟩)).issues =
      (scanVisits upper before ⟨[], []⟩).issues ∧
    (scanCall upper call autocommit
        { scanVisits upper before ⟨[], []⟩ with createdTables := [] }).issues ≠
      (scanVisits upper before ⟨[], []⟩).issues

/-- In the text, the call comes after an `op.create_table` with the literal name of its table,
and it is an operation that would be reported. -/
def Follows (body : List Stmt) (call : Call) (name : String) : Prop :=
  ∃ before autocommit after, visits body false = before ++ (call, autocommit) :: after ∧
    exemptTable call = some name ∧ (∃ visit ∈ before, createdTable visit.1 = some name) ∧
    findings upper [] (call, autocommit) ≠ []

variable {upper}

theorem suppressed_iff {body : List Stmt} {call : Call} :
    Suppressed upper body call ↔ ∃ name, Follows upper body call name := by
  unfold Suppressed Follows
  simp only [scanCall_issues, List.append_right_eq_self, ne_eq]
  constructor
  · rintro ⟨before, autocommit, after, hvisits, hquiet, hfound⟩
    rw [findings_eq] at hquiet
    split at hquiet
    · next hcreated =>
        obtain ⟨name, hname, -, hmem⟩ := isCreated_iff.mp hcreated
        rcases mem_scanVisits_createdTables.mp hmem with hmem | hmem
        · exact absurd hmem List.not_mem_nil
        · exact ⟨name, before, autocommit, after, hvisits, hname, hmem, hfound⟩
    · exact absurd hquiet hfound
  · rintro ⟨name, before, autocommit, after, hvisits, hname, hcreated, hfound⟩
    refine ⟨before, autocommit, after, hvisits, ?_, hfound⟩
    obtain ⟨visit, -, hnew⟩ := id hcreated
    rw [findings_eq]
    exact if_pos (isCreated_iff.mpr ⟨name, hname, ne_empty_of_createdTable hnew,
      mem_scanVisits_createdTables.mpr (.inr hcreated)⟩)

end Scanner

/-! ## Tables -/

/-- A name and a schema, `none` for the default schema. -/
structure Table where
  name : String
  schema : Option String
deriving DecidableEq

/-- What the arguments that are no literals come to when `upgrade()` runs. -/
structure Environment where
  value : Expr → Option String
  /-- What `**mapping` passes under a keyword. -/
  rest : Call → String → Option String

namespace Environment

variable (env : Environment)

/-- The text of an argument, or `none` for `None`. -/
def text : Expr → Option String
  | .constant (.str value) => some value
  | .constant .none => none
  | value => env.value value

/-- The text of an argument that is passed by keyword. -/
def keywordText (call : Call) (keyword : String) : Option String :=
  match keywordValue call keyword with
  | some value => env.text value
  | none => if call.keywords.any fun item => item.arg.isNone then env.rest call keyword else none

/-- The text of an argument that is passed by position or by keyword. -/
def argumentText (call : Call) (position : Nat) (keyword : String) : Option String :=
  match call.args[position]? with
  | some value => env.text value
  | none => env.keywordText call keyword

/-- The schema of the table that an operation is on. -/
def schemaOf (call : Call) : Option String :=
  env.keywordText call
    (if opMethod call = some "create_foreign_key" then "source_schema" else "schema")

/-- `op.create_table` of this table. -/
def creates (table : Table) (call : Call) : Bool :=
  opMethod call = some "create_table" ∧ env.argumentText call 0 "table_name" = some table.name ∧
    env.schemaOf call = table.schema

end Environment

/-! ## Soundness -/

/-- Each run of the body that comes to the call has created the table before. -/
def CreatedBefore (env : Environment) (swallows : Expr → Bool) (body : List Stmt) (call : Call)
    (table : Table) : Prop :=
  ∀ trace exit, blockRuns swallows body trace exit →
    ∀ earlier event later, trace = earlier ++ event :: later → event.call.place = call.place →
      ∃ made ∈ earlier, made.exit = .normal ∧ env.creates table made.call = true

/-- The analysis of a body for one call. -/
def coveredIn (env : Environment) (swallows : Expr → Bool) (body : List Stmt) (call : Call)
    (table : Table) : Bool :=
  blockCovered swallows (env.creates table) (fun other => other.place = call.place) body false

theorem createdBefore_iff {env : Environment} {swallows : Expr → Bool} {body : List Stmt}
    (hplain : plainBlock body = true) (call : Call) (table : Table) :
    CreatedBefore env swallows body call table ↔
      coveredIn env swallows body call table = true := by
  rw [coveredIn, ← blockCovered_iff hplain]
  unfold CreatedBefore Precedes
  refine forall_congr' fun trace => forall_congr' fun exit => imp_congr_right fun _ => ?_
  rw [guarded_iff]
  simp [Event.Made, Event.Comes]

/-- Each run that comes to an exempted call has created its table before exactly when, for each
call that comes after an `op.create_table` of that name in the text, the analysis finds that
the table, in the schema of the call, is certain to be there. -/
theorem exemption_sound_iff (upper : String → String) (env : Environment) (swallows : Expr → Bool)
    {body : List Stmt} (hplain : plainBlock body = true) :
    (∀ call, Suppressed upper body call → ∃ name, exemptTable call = some name ∧
        CreatedBefore env swallows body call ⟨name, env.schemaOf call⟩) ↔
      ∀ call name, Follows upper body call name →
        coveredIn env swallows body call ⟨name, env.schemaOf call⟩ = true := by
  simp only [suppressed_iff, ← createdBefore_iff hplain]
  constructor
  · intro h call name hfollows
    obtain ⟨other, hother, hbefore⟩ := h call ⟨name, hfollows⟩
    obtain ⟨_, _, _, _, hname, _, _⟩ := id hfollows
    obtain rfl := Option.some.inj (hname.symm.trans hother)
    exact hbefore
  · rintro h call ⟨name, hfollows⟩
    obtain ⟨_, _, _, _, hname, _, _⟩ := id hfollows
    exact ⟨name, hname, h call name hfollows⟩

/-! ## Samples -/

/-- `op.create_table("widgets")` on a line. -/
def widgetsCall (line : Nat) : Call := opCall line "create_table" [.constant (.str "widgets")]

/-- A new table and its index. -/
def bootstrap : List Stmt :=
  [.expr (.call (widgetsCall 1)), .expr (.call (indexCall 2 "widgets"))]

/-- The table is created in one branch, the index in the other. -/
def otherBranch : List Stmt :=
  [.if_ (.name "fresh") [.expr (.call (widgetsCall 2))] [.expr (.call (indexCall 4 "widgets"))]]

/-- A run without arguments to look up. -/
def noLookup : Environment := ⟨fun _ => none, fun _ _ => none⟩

theorem follows_bootstrap {call : Call} {name : String} (h : Follows id bootstrap call name) :
    call = indexCall 2 "widgets" ∧ name = "widgets" := by
  obtain ⟨before, autocommit, after, hvisits, hname, ⟨visit, hvisit, -⟩, -⟩ := h
  have hlist : [(widgetsCall 1, false), (indexCall 2 "widgets", false)] =
      before ++ (call, autocommit) :: after := hvisits
  rcases before with _ | ⟨first, _ | ⟨second, rest⟩⟩
  · exact absurd hvisit List.not_mem_nil
  · obtain rfl : indexCall 2 "widgets" = call :=
      (Prod.mk.inj (List.cons.inj (List.cons.inj hlist).2).1).1
    exact ⟨rfl, (Option.some.inj hname).symm⟩
  · have hlength := congrArg List.length hlist
    simp at hlength

theorem exemption_sound_bootstrap :
    Suppressed id bootstrap (indexCall 2 "widgets") ∧
      ∃ name, exemptTable (indexCall 2 "widgets") = some name ∧
        CreatedBefore noLookup (fun _ => false) bootstrap (indexCall 2 "widgets")
          ⟨name, noLookup.schemaOf (indexCall 2 "widgets")⟩ := by
  have hfollows : Follows id bootstrap (indexCall 2 "widgets") "widgets" := by
    refine ⟨[(widgetsCall 1, false)], false, [], rfl, by decide,
      ⟨_, List.mem_cons_self, by decide⟩, ?_⟩
    rw [findings_indexCall]
    decide
  have hsuppressed := suppressed_iff.mpr ⟨_, hfollows⟩
  refine ⟨hsuppressed, (exemption_sound_iff id noLookup (fun _ => false) (by decide)).mpr ?_ _
    hsuppressed⟩
  intro call name hcall
  obtain ⟨rfl, rfl⟩ := follows_bootstrap hcall
  decide

/-- The index is exempted, and a run comes to it without the table. -/
theorem exempt_in_other_branch :
    ¬∀ (upper : String → String) (env : Environment) (swallows : Expr → Bool) (body : List Stmt),
      plainBlock body = true → ∀ call, Suppressed upper body call →
        ∃ name, exemptTable call = some name ∧
          CreatedBefore env swallows body call ⟨name, env.schemaOf call⟩ := by
  intro h
  have hfollows : Follows id otherBranch (indexCall 4 "widgets") "widgets" := by
    refine ⟨[(widgetsCall 2, false)], false, [], rfl, by decide,
      ⟨_, List.mem_cons_self, by decide⟩, ?_⟩
    rw [findings_indexCall]
    decide
  obtain ⟨name, hname, hbefore⟩ := h id noLookup (fun _ => false) otherBranch (by decide)
    (indexCall 4 "widgets") (suppressed_iff.mpr ⟨_, hfollows⟩)
  obtain rfl : "widgets" = name := Option.some.inj hname
  rw [createdBefore_iff (by decide)] at hbefore
  revert hbefore
  decide

end ProdkitStorage.Migrations
