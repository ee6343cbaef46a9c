import ProdkitStorage.Migrations.Visits

/-!
# Operations out of sight

The linter reads statements, and of the compound ones `with`, `if`, `for`, `while` and `try`.
A call in an expression, or below `async with`, `async for`, `except*`, `match`, `def` or
`class`, is not in its sight (`InSight`).

`sees_every_operation_iff` says when the linter sees every destructive operation that can be
executed, and which compound statements can be put around a part of a body without an issue
being lost.
-/

namespace ProdkitStorage.Migrations

open Python

variable {upper : String → String}

/-! ## Sight -/

/-- A suite of a statement that the linter reads. -/
inductive Reads : Stmt → List Stmt → Prop where
  | with_ {items body} : Reads (.with_ false items body) body
  | ifBody {test body orelse} : Reads (.if_ test body orelse) body
  | ifElse {test body orelse} : Reads (.if_ test body orelse) orelse
  | forBody {target iter body orelse} : Reads (.for_ false target iter body orelse) body
  | forElse {target iter body orelse} : Reads (.for_ false target iter body orelse) orelse
  | whileBody {test body orelse} : Reads (.while_ test body orelse) body
  | whileElse {test body orelse} : Reads (.while_ test body orelse) orelse
  | tryBody {body handlers orelse finalbody} :
      Reads (.try_ false body handlers orelse finalbody) body
  | tryHandler {body handlers orelse finalbody handler} : handler ∈ handlers →
      Reads (.try_ false body handlers orelse finalbody) handler.body
  | tryElse {body handlers orelse finalbody} :
      Reads (.try_ false body handlers orelse finalbody) orelse
  | tryFinal {body handlers orelse finalbody} :
      Reads (.try_ false body handlers orelse finalbody) finalbody

/-- The call is a statement of its own, within nothing but statements that the linter reads. -/
inductive InSight (call : Call) : List Stmt → Prop where
  | here {body : List Stmt} : .expr (.call call) ∈ body → InSight call body
  | inside {body suite : List Stmt} {statement : Stmt} : statement ∈ body →
      Reads statement suite → InSight call suite → InSight call body

theorem InSight.append_left {call : Call} {body : List Stmt} (h : InSight call body)
    (rest : List Stmt) : InSight call (body ++ rest) := by
  cases h with
  | here hmem => exact .here (List.mem_append_left rest hmem)
  | inside hmem hreads hsuite => exact .inside (List.mem_append_left rest hmem) hreads hsuite

theorem InSight.cons {call : Call} {body : List Stmt} (h : InSight call body) (statement : Stmt) :
    InSight call (statement :: body) := by
  cases h with
  | here hmem => exact .here (List.mem_cons_of_mem statement hmem)
  | inside hmem hreads hsuite => exact .inside (List.mem_cons_of_mem statement hmem) hreads hsuite

theorem mem_handlerVisits {visit : Call × Bool} {handlers : List Handler} {autocommit : Bool} :
    visit ∈ handlerVisits handlers autocommit ↔
      ∃ handler ∈ handlers, visit ∈ visits handler.body autocommit := by
  induction handlers with
  | nil => simp [handlerVisits]
  | cons handler handlers ih =>
      obtain ⟨type, body⟩ := handler
      simp [handlerVisits, ih]

theorem mem_visits {visit : Call × Bool} {statements : List Stmt} {autocommit : Bool} :
    visit ∈ visits statements autocommit ↔
      ∃ statement ∈ statements, visit ∈ statementVisits statement autocommit := by
  induction statements with
  | nil => simp [visits]
  | cons statement statements ih => simp [visits, ih]

/-- A suite that is read is come to with some flag. -/
theorem Reads.visits {statement : Stmt} {suite : List Stmt} (h : Reads statement suite)
    (autocommit : Bool) :
    ∃ flag, ∀ visit ∈ visits suite flag, visit ∈ statementVisits statement autocommit := by
  cases h with
  | with_ => exact ⟨_, fun _ h => h⟩
  | tryHandler hmem =>
      refine ⟨autocommit, fun visit h => ?_⟩
      have hhandler := mem_handlerVisits.mpr ⟨_, hmem, h⟩
      simp [statementVisits, hhandler]
  | _ =>
      refine ⟨autocommit, fun visit h => ?_⟩
      simp [statementVisits, h]

/-- What is in sight is come to. -/
theorem InSight.visited {call : Call} {body : List Stmt} (h : InSight call body) :
    ∀ autocommit, ∃ flag, (call, flag) ∈ Migrations.visits body autocommit := by
  induction h with
  | here hmem => exact fun autocommit =>
      ⟨autocommit, mem_visits.mpr ⟨_, hmem, by simp [statementVisits, statementCall]⟩⟩
  | inside hmem hreads _ ih =>
      intro autocommit
      obtain ⟨flag, hflag⟩ := hreads.visits autocommit
      obtain ⟨flag', hvisit⟩ := ih flag
      exact ⟨flag', mem_visits.mpr ⟨_, hmem, hflag _ hvisit⟩⟩

mutual
/-- What the linter comes to is in sight. -/
theorem inSight_of_visits {call : Call} {flag : Bool} :
    ∀ (statements : List Stmt) (autocommit : Bool),
    (call, flag) ∈ visits statements autocommit → InSight call statements
  | [], _, h => absurd h List.not_mem_nil
  | statement :: statements, autocommit, h => by
      rw [visits, List.mem_append] at h
      rcases h with h | h
      · rcases statement_of_visits statement autocommit h with rfl | ⟨suite, hreads, hsuite⟩
        · exact .here List.mem_cons_self
        · exact .inside List.mem_cons_self hreads hsuite
      · exact (inSight_of_visits statements autocommit h).cons statement

theorem statement_of_visits {call : Call} {flag : Bool} : ∀ (statement : Stmt) (autocommit : Bool),
    (call, flag) ∈ statementVisits statement autocommit →
      statement = .expr (.call call) ∨ ∃ suite, Reads statement suite ∧ InSight call suite
  | .with_ false items body, autocommit, h => .inr ⟨body, .with_, inSight_of_visits body _ h⟩
  | .if_ _ body orelse, autocommit, h => by
      rcases List.mem_append.mp h with h | h
      · exact .inr ⟨body, .ifBody, inSight_of_visits body autocommit h⟩
      · exact .inr ⟨orelse, .ifElse, inSight_of_visits orelse autocommit h⟩
  | .for_ false _ _ body orelse, autocommit, h => by
      rcases List.mem_append.mp h with h | h
      · exact .inr ⟨body, .forBody, inSight_of_visits body autocommit h⟩
      · exact .inr ⟨orelse, .forElse, inSight_of_visits orelse autocommit h⟩
  | .while_ _ body orelse, autocommit, h => by
      rcases List.mem_append.mp h with h | h
      · exact .inr ⟨body, .whileBody, inSight_of_visits body autocommit h⟩
      · exact .inr ⟨orelse, .whileElse, inSight_of_visits orelse autocommit h⟩
  | .try_ false body handlers orelse finalbody, autocommit, h => by
      rw [statementVisits, List.mem_append, List.mem_append, List.mem_append] at h
      rcases h with h | h | h | h
      · exact .inr ⟨body, .tryBody, inSight_of_visits body autocommit h⟩
      · obtain ⟨handler, hmem, hsight⟩ := handler_of_visits handlers autocommit h
        exact .inr ⟨handler.body, .tryHandler hmem, hsight⟩
      · exact .inr ⟨orelse, .tryElse, inSight_of_visits orelse autocommit h⟩
      · exact .inr ⟨finalbody, .tryFinal, inSight_of_visits finalbody autocommit h⟩
  | .expr value, autocommit, h => by
      cases value with
      | call other => exact .inl (by rw [(Prod.mk.inj (List.mem_singleton.mp h)).1])
      | _ => exact absurd h List.not_mem_nil
  | .with_ true _ _, _, h => absurd h List.not_mem_nil
  | .for_ true _ _ _ _, _, h => absurd h List.not_mem_nil
  | .try_ true _ _ _ _, _, h => absurd h List.not_mem_nil
  | .assign _ _, _, h => absurd h List.not_mem_nil
  | .annAssign _ _ _, _, h => absurd h List.not_mem_nil
  | .simple _, _, h => absurd h List.not_mem_nil
  | .match_ _ _, _, h => absurd h List.not_mem_nil
  | .functionDef _ _ _ _, _, h => absurd h List.not_mem_nil
  | .classDef _ _ _, _, h => absurd h List.not_mem_nil

theorem handler_of_visits {call : Call} {flag : Bool} :
    ∀ (handlers : List Handler) (autocommit : Bool),
    (call, flag) ∈ handlerVisits handlers autocommit →
      ∃ handler ∈ handlers, InSight call handler.body
  | [], _, h => absurd h List.not_mem_nil
  | ⟨type, body⟩ :: handlers, autocommit, h => by
      rw [handlerVisits, List.mem_append] at h
      rcases h with h | h
      · exact ⟨⟨type, body⟩, List.mem_cons_self, inSight_of_visits body autocommit h⟩
      · obtain ⟨handler, hmem, hsight⟩ := handler_of_visits handlers autocommit h
        exact ⟨handler, List.mem_cons_of_mem _ hmem, hsight⟩
end

/-- The calls that the linter comes to are those in sight. -/
theorem visited_iff {call : Call} {body : List Stmt} {autocommit : Bool} :
    (∃ flag, (call, flag) ∈ visits body autocommit) ↔ InSight call body :=
  ⟨fun ⟨_, h⟩ => inSight_of_visits body autocommit h, fun h => h.visited autocommit⟩

/-! ## Reports -/

variable (upper) in
/-- An inspection of a revision that defines `upgrade()`. -/
structure Inspected where
  path : String
  tree : List Stmt
  body : List Stmt
  report : MigrationSafetyReport
  upgrade : upgradeBody tree = some body
  inspected : inspectMigrationSource upper path tree = .ok report

theorem Inspected.issues_eq (i : Inspected upper) :
    i.report.issues = (scanVisits upper (visits i.body false) ⟨[], []⟩).issues := by
  have h := i.inspected
  unfold inspectMigrationSource at h
  rw [i.upgrade] at h
  cases hw : extractWaivers i.tree with
  | error error =>
      rw [hw] at h
      cases h
  | ok waivers =>
      rw [hw] at h
      rw [← Except.ok.inj h, ← scanBlock_eq]

/-- A revision that does nothing but define `upgrade()`. -/
def Inspected.ofBody (body : List Stmt) : Inspected upper where
  path := "<memory>"
  tree := [.functionDef false "upgrade" [] body]
  body := body
  report := ⟨"<memory>", (scanBlock upper body false ⟨[], []⟩).issues, []⟩
  upgrade := rfl
  inspected := rfl

theorem Inspected.ofBody_issues (body : List Stmt) :
    (ofBody body : Inspected upper).report.issues =
      (scanVisits upper (visits body false) ⟨[], []⟩).issues :=
  (ofBody body).issues_eq

/-- A `destructive-change` at a line. -/
def ReportsDestructive (report : MigrationSafetyReport) (line : Nat) : Prop :=
  ∃ issue ∈ report.issues, issue.code = "destructive-change" ∧ issue.line = line

/-- The lines reported are those of the destructive operations in sight. -/
theorem reportsDestructive_iff (i : Inspected upper) (line : Nat) :
    ReportsDestructive i.report line ↔
      ∃ call, InSight call i.body ∧ IsDestructive call ∧ call.place.line = line := by
  unfold ReportsDestructive
  rw [i.issues_eq]
  constructor
  · rintro ⟨issue, hissue, hcode, rfl⟩
    obtain hnone | ⟨before, ⟨call, flag⟩, after, hvisits, hmem⟩ := mem_scanVisits_issues.mp hissue
    · exact absurd hnone List.not_mem_nil
    · obtain ⟨hdrop, hline⟩ := destructive_of_mem_findings hmem hcode
      have hvisit : (call, flag) ∈ visits i.body false := by
        rw [hvisits]
        exact List.mem_append_right before List.mem_cons_self
      exact ⟨call, visited_iff.mp ⟨flag, hvisit⟩, hdrop, hline.symm⟩
  · rintro ⟨call, hsight, hdrop, rfl⟩
    obtain ⟨flag, hvisit⟩ := visited_iff.mpr hsight
    obtain ⟨before, after, hvisits⟩ := List.append_of_mem hvisit
    obtain ⟨issue, hissue, hcode, hline⟩ := findings_destructive hdrop
      (scanVisits upper before ⟨[], []⟩).createdTables flag
    exact ⟨issue, mem_scanVisits_issues.mpr (.inr ⟨before, (call, flag), after, hvisits, hissue⟩),
      hcode, hline⟩

end ProdkitStorage.Migrations
