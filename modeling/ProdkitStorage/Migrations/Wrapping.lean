import ProdkitStorage.Migrations.Sight

/-!
# Compound statements around a part of a body

A part of a body can be put into a further compound statement (`Wraps`).  Where the linter
reads the suite that the part becomes, it comes to the same calls as before, and to those of
the other suites (`Wraps.extends`).
-/

namespace ProdkitStorage.Migrations

variable {upper : String → String}

/-- A compound statement with a place for a suite. -/
inductive Wrapper where
  | with_ (isAsync : Bool) (items : List WithItem)
  | ifBody (test : Expr) (orelse : List Stmt)
  | ifElse (test : Expr) (body : List Stmt)
  | forBody (isAsync : Bool) (target iter : Expr) (orelse : List Stmt)
  | forElse (isAsync : Bool) (target iter : Expr) (body : List Stmt)
  | whileBody (test : Expr) (orelse : List Stmt)
  | whileElse (test : Expr) (body : List Stmt)
  | tryBody (isStar : Bool) (handlers : List Handler) (orelse finalbody : List Stmt)
  | tryHandler (isStar : Bool) (body : List Stmt) (before : List Handler) (type : Option Expr)
      (after : List Handler) (orelse finalbody : List Stmt)
  | tryElse (isStar : Bool) (body : List Stmt) (handlers : List Handler) (finalbody : List Stmt)
  | tryFinal (isStar : Bool) (body : List Stmt) (handlers : List Handler) (orelse : List Stmt)
  | matchCase (subject : Expr) (before : List MatchCase) (patterns : List Expr)
      (guard : Option Expr) (after : List MatchCase)
  | functionBody (isAsync : Bool) (name : String) (header : List Expr)
  | classBody (name : String) (header : List Expr)

namespace Wrapper

/-- The statement, with a suite in its place. -/
def plug : Wrapper → List Stmt → Stmt
  | with_ isAsync items, suite => .with_ isAsync items suite
  | ifBody test orelse, suite => .if_ test suite orelse
  | ifElse test body, suite => .if_ test body suite
  | forBody isAsync target iter orelse, suite => .for_ isAsync target iter suite orelse
  | forElse isAsync target iter body, suite => .for_ isAsync target iter body suite
  | whileBody test orelse, suite => .while_ test suite orelse
  | whileElse test body, suite => .while_ test body suite
  | tryBody isStar handlers orelse finalbody, suite =>
      .try_ isStar suite handlers orelse finalbody
  | tryHandler isStar body before type after orelse finalbody, suite =>
      .try_ isStar body (before ++ ⟨type, suite⟩ :: after) orelse finalbody
  | tryElse isStar body handlers finalbody, suite => .try_ isStar body handlers suite finalbody
  | tryFinal isStar body handlers orelse, suite => .try_ isStar body handlers orelse suite
  | matchCase subject before patterns guard after, suite =>
      .match_ subject (before ++ ⟨patterns, guard, suite⟩ :: after)
  | functionBody isAsync name header, suite => .functionDef isAsync name header suite
  | classBody name header, suite => .classDef name header suite

/-- The statement is one of `with`, `if`, `for`, `while` and `try`. -/
def scanned : Wrapper → Bool
  | with_ isAsync _ => !isAsync
  | forBody isAsync .. => !isAsync
  | forElse isAsync .. => !isAsync
  | tryBody isStar .. => !isStar
  | tryHandler isStar .. => !isStar
  | tryElse isStar .. => !isStar
  | tryFinal isStar .. => !isStar
  | matchCase .. => false
  | functionBody .. => false
  | classBody .. => false
  | _ => true

/-- The statement opens an `autocommit_block()`. -/
def isAutocommit : Wrapper → Bool
  | with_ _ items => items.any fun item => isAutocommitContext item.contextExpr
  | _ => false

/-- No other suite of the statement creates a table in sight of the linter. -/
def CreatesNothing (w : Wrapper) : Prop :=
  ∀ call, InSight call [w.plug []] → createdTable call = none

/-- The linter comes to nothing in the other statements. -/
theorem visits_of_not_scanned {w : Wrapper} (h : w.scanned = false) (suite : List Stmt)
    (autocommit : Bool) : statementVisits (w.plug suite) autocommit = [] := by
  cases w with
  | with_ isAsync items =>
      obtain rfl : isAsync = true := by simpa [scanned] using h
      rfl
  | forBody isAsync target iter orelse =>
      obtain rfl : isAsync = true := by simpa [scanned] using h
      rfl
  | forElse isAsync target iter body =>
      obtain rfl : isAsync = true := by simpa [scanned] using h
      rfl
  | tryBody isStar handlers orelse finalbody =>
      obtain rfl : isStar = true := by simpa [scanned] using h
      rfl
  | tryHandler isStar body before type after orelse finalbody =>
      obtain rfl : isStar = true := by simpa [scanned] using h
      rfl
  | tryElse isStar body handlers finalbody =>
      obtain rfl : isStar = true := by simpa [scanned] using h
      rfl
  | tryFinal isStar body handlers orelse =>
      obtain rfl : isStar = true := by simpa [scanned] using h
      rfl
  | matchCase => rfl
  | functionBody => rfl
  | classBody => rfl
  | _ => cases h

/-- In the statements it reads, it comes to the suite, between the other suites. -/
theorem visits_of_scanned {w : Wrapper} (h : w.scanned = true) (autocommit : Bool) :
    ∃ before after, ∀ suite, statementVisits (w.plug suite) autocommit =
      before ++ (visits suite (autocommit || w.isAutocommit) ++ after) := by
  cases w with
  | with_ isAsync items =>
      obtain rfl : isAsync = false := by simpa [scanned] using h
      exact ⟨[], [], fun suite => (List.append_nil _).symm⟩
  | ifBody test orelse =>
      refine ⟨[], visits orelse autocommit, fun suite => ?_⟩
      simp only [isAutocommit, Bool.or_false]
      rfl
  | ifElse test body =>
      refine ⟨visits body autocommit, [], fun suite => ?_⟩
      simp only [isAutocommit, Bool.or_false, List.append_nil]
      rfl
  | forBody isAsync target iter orelse =>
      obtain rfl : isAsync = false := by simpa [scanned] using h
      refine ⟨[], visits orelse autocommit, fun suite => ?_⟩
      simp only [isAutocommit, Bool.or_false]
      rfl
  | forElse isAsync target iter body =>
      obtain rfl : isAsync = false := by simpa [scanned] using h
      refine ⟨visits body autocommit, [], fun suite => ?_⟩
      simp only [isAutocommit, Bool.or_false, List.append_nil]
      rfl
  | whileBody test orelse =>
      refine ⟨[], visits orelse autocommit, fun suite => ?_⟩
      simp only [isAutocommit, Bool.or_false]
      rfl
  | whileElse test body =>
      refine ⟨visits body autocommit, [], fun suite => ?_⟩
      simp only [isAutocommit, Bool.or_false, List.append_nil]
      rfl
  | tryBody isStar handlers orelse finalbody =>
      obtain rfl : isStar = false := by simpa [scanned] using h
      refine ⟨[], handlerVisits handlers autocommit ++
        (visits orelse autocommit ++ visits finalbody autocommit), fun suite => ?_⟩
      simp only [isAutocommit, Bool.or_false]
      rfl
  | tryHandler isStar body before type after orelse finalbody =>
      obtain rfl : isStar = false := by simpa [scanned] using h
      refine ⟨visits body autocommit ++ handlerVisits before autocommit,
        handlerVisits after autocommit ++
          (visits orelse autocommit ++ visits finalbody autocommit), fun suite => ?_⟩
      simp only [isAutocommit, Bool.or_false, plug, statementVisits, handlerVisits_append,
        handlerVisits, List.append_assoc]
  | tryElse isStar body handlers finalbody =>
      obtain rfl : isStar = false := by simpa [scanned] using h
      refine ⟨visits body autocommit ++ handlerVisits handlers autocommit,
        visits finalbody autocommit, fun suite => ?_⟩
      simp only [isAutocommit, Bool.or_false, plug, statementVisits, List.append_assoc]
  | tryFinal isStar body handlers orelse =>
      obtain rfl : isStar = false := by simpa [scanned] using h
      refine
        ⟨visits body autocommit ++ (handlerVisits handlers autocommit ++ visits orelse autocommit),
        [], fun suite => ?_⟩
      simp only [isAutocommit, Bool.or_false, plug, statementVisits, List.append_assoc,
        List.append_nil]
  | matchCase => cases h
  | functionBody => cases h
  | classBody => cases h

end Wrapper

/-- A part of a body is put into a further compound statement. -/
inductive Wraps (w : Wrapper) : List Stmt → List Stmt → Prop where
  | here (before part after : List Stmt) :
      Wraps w (before ++ (part ++ after)) (before ++ w.plug part :: after)
  | inside (outer : Wrapper) (before after : List Stmt) {suite suite' : List Stmt} :
      Wraps w suite suite' →
        Wraps w (before ++ outer.plug suite :: after) (before ++ outer.plug suite' :: after)

/-! ## More is come to -/

/-- The same calls, with others between them that create no table.  The flags may differ under
an `autocommit_block()`. -/
inductive Extends (autocommit : Bool) : List (Call × Bool) → List (Call × Bool) → Prop where
  | nil : Extends autocommit [] []
  | keep (visit : Call × Bool) {calls calls' : List (Call × Bool)} :
      Extends autocommit calls calls' → Extends autocommit (visit :: calls) (visit :: calls')
  | reflag (call : Call) (flag flag' : Bool) {calls calls' : List (Call × Bool)} :
      autocommit = true → Extends autocommit calls calls' →
        Extends autocommit ((call, flag) :: calls) ((call, flag') :: calls')
  | more (visit : Call × Bool) {calls calls' : List (Call × Bool)} :
      createdTable visit.1 = none → Extends autocommit calls calls' →
        Extends autocommit calls (visit :: calls')

namespace Extends

variable {autocommit : Bool}

theorem refl : ∀ calls : List (Call × Bool), Extends autocommit calls calls
  | [] => .nil
  | visit :: calls => .keep visit (refl calls)

theorem append {a a' b b' : List (Call × Bool)} (h : Extends autocommit a a')
    (h' : Extends autocommit b b') : Extends autocommit (a ++ b) (a' ++ b') := by
  induction h with
  | nil => exact h'
  | keep visit _ ih => exact .keep visit ih
  | reflag call flag flag' hauto _ ih => exact .reflag call flag flag' hauto ih
  | more visit hnone _ ih => exact .more visit hnone ih

theorem of_createsNothing : ∀ {calls : List (Call × Bool)},
    (∀ visit ∈ calls, createdTable visit.1 = none) → Extends autocommit [] calls
  | [], _ => .nil
  | visit :: _, h => .more visit (h visit List.mem_cons_self)
      (of_createsNothing fun other hother => h other (List.mem_cons_of_mem visit hother))

/-- The same calls with other flags. -/
theorem of_map_eq : ∀ {calls calls' : List (Call × Bool)},
    calls.map Prod.fst = calls'.map Prod.fst → Extends true calls calls'
  | [], [], _ => .nil
  | (call, flag) :: calls, (call', flag') :: calls', h => by
      obtain ⟨rfl, hrest⟩ := List.cons.inj h
      exact .reflag _ flag flag' rfl (of_map_eq hrest)

theorem of_flag (statements : List Stmt) (outer : Bool) :
    Extends autocommit (visits statements outer) (visits statements (outer || autocommit)) := by
  cases autocommit with
  | false =>
      rw [Bool.or_false]
      exact refl _
  | true => exact of_map_eq (map_visits statements _ _)

/-- What was reported still is. -/
theorem issues {calls calls' : List (Call × Bool)} (h : Extends autocommit calls calls')
    {s s' : UpgradeScanner} (htables : s.createdTables = s'.createdTables)
    (hissues : ∀ issue ∈ s.issues, issue ∈ s'.issues ∨
      (autocommit = true ∧ issue.code = "concurrent-index-transaction")) :
    ∀ issue ∈ (scanVisits upper calls s).issues, issue ∈ (scanVisits upper calls' s').issues ∨
      (autocommit = true ∧ issue.code = "concurrent-index-transaction") := by
  induction h generalizing s s' with
  | nil => exact hissues
  | keep visit _ ih =>
      refine ih ?_ ?_
      · rw [scanCall_createdTables, scanCall_createdTables, htables]
      · intro issue hissue
        rw [scanCall_issues, List.mem_append] at hissue
        rw [scanCall_issues, List.mem_append, ← htables]
        rcases hissue with hissue | hissue
        · exact (hissues issue hissue).imp_left .inl
        · exact .inl (.inr hissue)
  | reflag call flag flag' hauto _ ih =>
      refine ih ?_ ?_
      · rw [scanCall_createdTables, scanCall_createdTables, htables]
      · intro issue hissue
        rw [scanCall_issues, List.mem_append] at hissue
        rw [scanCall_issues, List.mem_append, ← htables]
        rcases hissue with hissue | hissue
        · exact (hissues issue hissue).imp_left .inl
        · exact (mem_findings_flag hissue).imp .inr fun hcode => ⟨hauto, hcode⟩
  | more visit hnone _ ih =>
      refine ih ?_ ?_
      · rw [scanCall_createdTables, hnone]
        exact htables
      · intro issue hissue
        rw [scanCall_issues, List.mem_append]
        exact (hissues issue hissue).imp_left .inl

end Extends

/-- What is put into a statement that the linter reads is still come to. -/
theorem Wraps.extends {w : Wrapper} {body body' : List Stmt} (h : Wraps w body body')
    (hscanned : w.scanned = true) (hnothing : w.CreatesNothing) (autocommit : Bool) :
    Extends w.isAutocommit (visits body autocommit) (visits body' autocommit) := by
  induction h generalizing autocommit with
  | here before part after =>
      obtain ⟨earlier, later, hvisits⟩ := Wrapper.visits_of_scanned hscanned autocommit
      have hother : ∀ visit ∈ earlier ++ later, createdTable visit.1 = none := by
        rintro ⟨call, flag⟩ hvisit
        have hcome : (call, flag) ∈ visits [w.plug []] autocommit := by
          rw [visits, hvisits]
          simpa [visits] using hvisit
        exact hnothing call (inSight_of_visits _ autocommit hcome)
      have hpart : Extends w.isAutocommit (visits part autocommit)
          (statementVisits (w.plug part) autocommit) := by
        rw [hvisits, ← List.nil_append (visits part autocommit),
          ← List.append_nil (visits part autocommit)]
        refine .append (.of_createsNothing fun visit hmem => ?_) (.append (.of_flag part autocommit)
          (.of_createsNothing fun visit hmem => ?_))
        · exact hother visit (List.mem_append_left later hmem)
        · exact hother visit (List.mem_append_right earlier hmem)
      rw [visits_append, visits_append, visits_append, visits]
      exact .append (.refl _) (.append hpart (.refl _))
  | inside outer before after _ ih =>
      rw [visits_append, visits_append, visits, visits]
      refine .append (.refl _) (.append ?_ (.refl _))
      cases houter : outer.scanned with
      | false =>
          rw [Wrapper.visits_of_not_scanned houter, Wrapper.visits_of_not_scanned houter]
          exact .nil
      | true =>
          obtain ⟨earlier, later, hvisits⟩ := Wrapper.visits_of_scanned houter autocommit
          rw [hvisits, hvisits]
          exact .append (.refl _) (.append (ih _) (.refl _))

/-! ## Every operation -/

/-- No issue is lost, but for what an `autocommit_block()` makes right. -/
def Keeps (w : Wrapper) (report report' : MigrationSafetyReport) : Prop :=
  ∀ issue ∈ report.issues, issue ∈ report'.issues ∨
    (w.isAutocommit = true ∧ issue.code = "concurrent-index-transaction")

theorem Wraps.keeps {w : Wrapper} {i i' : Inspected upper} (h : Wraps w i.body i'.body)
    (hscanned : w.scanned = true) (hnothing : w.CreatesNothing) : Keeps w i.report i'.report := by
  unfold Keeps
  rw [i.issues_eq, i'.issues_eq]
  exact (h.extends hscanned hnothing false).issues rfl fun _ hmem => absurd hmem List.not_mem_nil

theorem Wraps.whole (w : Wrapper) (part : List Stmt) : Wraps w part [w.plug part] := by
  simpa using Wraps.here (w := w) [] part []

/-- A destructive operation is lost in a statement that the linter does not read. -/
theorem scanned_of_keeps {w : Wrapper}
    (h : ∀ i i' : Inspected upper, Wraps w i.body i'.body → Keeps w i.report i'.report) :
    w.scanned = true := by
  cases hscanned : w.scanned with
  | true => rfl
  | false =>
      have hdrop : IsDestructive (opCall 1 "drop_table" []) := ⟨"drop_table", by decide, by decide⟩
      have hkeeps := h (.ofBody [.expr (.call (opCall 1 "drop_table" []))]) (.ofBody _) (.whole w _)
      obtain ⟨issue, hissue, hcode, -⟩ :=
        (reportsDestructive_iff (.ofBody [.expr (.call (opCall 1 "drop_table" []))]) 1).mpr
          ⟨_, .here List.mem_cons_self, hdrop, rfl⟩
      rcases hkeeps issue hissue with hmem | ⟨-, hother⟩
      · rw [Inspected.ofBody_issues, visits, Wrapper.visits_of_not_scanned hscanned] at hmem
        exact absurd hmem List.not_mem_nil
      · rw [hcode] at hother
        exact absurd hother (by decide)

theorem exists_line_above (calls : List (Call × Bool)) :
    ∃ line, ∀ visit ∈ calls, visit.1.place.line < line := by
  induction calls with
  | nil => exact ⟨0, fun _ h => absurd h List.not_mem_nil⟩
  | cons first calls ih =>
      obtain ⟨line, hline⟩ := ih
      refine ⟨line + first.1.place.line + 1, fun visit hvisit => ?_⟩
      rcases List.mem_cons.mp hvisit with rfl | hvisit
      · omega
      · have hlt := hline visit hvisit
        omega

/-- An index that comes after the creation of its table is not reported. -/
theorem exempt_of_created {others : List (Call × Bool)} {line : Nat} {table : String}
    (hline : ∀ visit ∈ others, visit.1.place.line < line)
    (hcreated : ∃ visit ∈ others, createdTable visit.1 = some table)
    {issue : MigrationSafetyIssue}
    (hissue : issue ∈
      (scanVisits upper (others ++ [(indexCall line table, false)]) ⟨[], []⟩).issues) :
    issue.line ≠ line := by
  obtain hnone | ⟨earlier, visit, later, hsplit, hmem⟩ := mem_scanVisits_issues.mp hissue
  · exact absurd hnone List.not_mem_nil
  · rcases List.eq_nil_or_concat later with rfl | ⟨between, last, rfl⟩
    · obtain ⟨rfl, hlast⟩ := List.append_inj' hsplit rfl
      obtain rfl := (List.cons.inj hlast).1
      have htable : table ∈ (scanVisits upper others ⟨[], []⟩).createdTables :=
        mem_scanVisits_createdTables.mpr (.inr hcreated)
      obtain ⟨visit, -, hnew⟩ := hcreated
      rw [findings_indexCall, if_pos (isCreated_iff.mpr
        ⟨table, rfl, ne_empty_of_createdTable hnew, htable⟩)] at hmem
      exact absurd hmem List.not_mem_nil
    · rw [List.concat_eq_append, ← List.cons_append, ← List.append_assoc] at hsplit
      obtain ⟨rfl, -⟩ := List.append_inj' hsplit rfl
      rw [line_of_mem_findings hmem]
      exact (hline visit (List.mem_append_right earlier List.mem_cons_self)).ne

/-- The other suites create no table: an index after the statement would be exempted. -/
theorem createsNothing_of_keeps {w : Wrapper}
    (h : ∀ i i' : Inspected upper, Wraps w i.body i'.body → Keeps w i.report i'.report) :
    w.CreatesNothing := by
  intro call hsight
  cases htable : createdTable call with
  | none => rfl
  | some table =>
      obtain ⟨flag, hvisit⟩ := hsight.visited false
      obtain ⟨before, after, hvisits⟩ := Wrapper.visits_of_scanned (scanned_of_keeps h) false
      rw [visits, visits, List.append_nil, hvisits] at hvisit
      have hplug : visits [w.plug [.simple []]] false = before ++ after := by
        rw [visits, visits, List.append_nil, hvisits]
        rfl
      obtain ⟨line, hline⟩ := exists_line_above (before ++ after)
      -- the index is put after the statement, on a line of its own
      have hwraps : Wraps w [.simple [], .expr (.call (indexCall line table))]
          [w.plug [.simple []], .expr (.call (indexCall line table))] :=
        .here [] [.simple []] [.expr (.call (indexCall line table))]
      have hbody : visits [w.plug [.simple []], .expr (.call (indexCall line table))] false =
          (before ++ after) ++ [(indexCall line table, false)] := by
        rw [← hplug]
        exact visits_append [w.plug [.simple []]] [.expr (.call (indexCall line table))] false
      have hkeeps := h (.ofBody _) (.ofBody _) hwraps
      unfold Keeps at hkeeps
      rw [Inspected.ofBody_issues, Inspected.ofBody_issues, hbody] at hkeeps
      have hreported : (⟨"blocking-index", .error, line,
          "index on an existing table must use postgresql_concurrently=True"⟩ :
            MigrationSafetyIssue) ∈
          (scanVisits upper (visits [.simple [], .expr (.call (indexCall line table))] false)
            ⟨[], []⟩).issues := by
        refine mem_scanVisits_issues.mpr (.inr ⟨[], (indexCall line table, false), [], rfl, ?_⟩)
        rw [findings_indexCall, scanVisits, List.foldl_nil, isCreated_nil]
        exact List.mem_cons_self
      rcases hkeeps _ hreported with hmem | ⟨-, hcode⟩
      · exact absurd rfl (exempt_of_created hline ⟨(call, flag), hvisit, htable⟩ hmem)
      · exact absurd hcode (show "blocking-index" ≠ "concurrent-index-transaction" by decide)

/-- Every destructive operation that can be executed is reported exactly when each is on the
line of one in sight, and a statement put around a part of a body never hides an issue exactly
when the linter reads that statement and the other suites create no table. -/
theorem sees_every_operation_iff :
    (∀ (i : Inspected upper) (executes : Call → Prop),
      (∀ call ∈ blockCalls i.body, executes call → IsDestructive call →
          ReportsDestructive i.report call.place.line) ↔
        ∀ call ∈ blockCalls i.body, executes call → IsDestructive call →
          ∃ other, InSight other i.body ∧ IsDestructive other ∧
            other.place.line = call.place.line) ∧
      ∀ w : Wrapper,
        (∀ i i' : Inspected upper, Wraps w i.body i'.body → Keeps w i.report i'.report) ↔
          w.scanned = true ∧ w.CreatesNothing := by
  constructor
  · intro i executes
    simp only [reportsDestructive_iff]
  · intro w
    constructor
    · intro h
      exact ⟨scanned_of_keeps h, createsNothing_of_keeps h⟩
    · rintro ⟨hscanned, hnothing⟩ i i' hwraps
      exact hwraps.keeps hscanned hnothing

/-- `result = op.drop_table()`. -/
def assigned : List Stmt := [.assign [.name "result"] (.call (opCall 1 "drop_table" []))]

/-- The operation is in an expression: nothing is reported. -/
theorem assigned_out_of_sight :
    ¬∀ (upper : String → String) (i : Inspected upper) (executes : Call → Prop),
      ∀ call ∈ blockCalls i.body, executes call → IsDestructive call →
        ReportsDestructive i.report call.place.line := by
  intro h
  have hdrop : IsDestructive (opCall 1 "drop_table" []) := ⟨"drop_table", by decide, by decide⟩
  obtain ⟨issue, hissue, -⟩ := h id (.ofBody assigned) (fun _ => True) (opCall 1 "drop_table" [])
    List.mem_cons_self trivial hdrop
  exact absurd hissue List.not_mem_nil

end ProdkitStorage.Migrations
