import ProdkitStorage.Migrations.NewTables
import ProdkitStorage.Migrations.Sight

/-!
# The check of a deployment

`migration-check` of `cli.py`, which inspects revisions one after another, prints what it finds and
ends with 1 when something blocks.

The linter looks at the calls that are statements, and a run also executes the calls in headers
and arguments.  Where these are no operations, a plain `upgrade()` executes only operations that
the linter comes to (`executed_visited`): what a revision does that passes the check, on any run,
was found harmless or was waived.
-/

namespace ProdkitStorage.Migrations

open Foundation Foundation.Behaviour
open Python

/-! ## The command -/

/-- `issue.severity.value.upper()`. -/
def MigrationSeverity.shown : MigrationSeverity → String
  | .warning => "WARNING"
  | .error => "ERROR"

/-- A line that is printed for an issue. -/
def reportLine (report : MigrationSafetyReport) (issue : MigrationSafetyIssue) : String :=
  let status := if report.waivers.contains issue.code then "WAIVED" else issue.severity.shown
  report.path ++ ":" ++ toString issue.line ++ ": " ++ status ++ " " ++ issue.code ++ ": " ++
    issue.message

/-- The loop of `_migration_check`: what is printed, and the exit code unless something raises. -/
def migrationCheckFrom (inspect : String → Except PyError MigrationSafetyReport)
    (blocking : Bool) : List String → List String × Except PyError Nat
  | [] => ([], .ok (if blocking then 1 else 0))
  | path :: paths =>
      match inspect path with
      | .error e => ([], .error e)
      | .ok report =>
          let rest := migrationCheckFrom inspect (blocking || !report.blockingIssues.isEmpty) paths
          (report.issues.map (reportLine report) ++ rest.1, rest.2)

/-- `_migration_check`. -/
def migrationCheck (inspect : String → Except PyError MigrationSafetyReport)
    (paths : List String) : List String × Except PyError Nat :=
  migrationCheckFrom inspect false paths

/-- `inspect_migration_file`, where `source` reads and parses a file. -/
def inspectMigrationFile (upper : String → String) (source : String → Except PyError (List Stmt))
    (path : String) : Except PyError MigrationSafetyReport := do
  let tree ← source path
  inspectMigrationSource upper path tree

/-! ## The exit code -/

variable {inspect : String → Except PyError MigrationSafetyReport}

theorem migrationCheckFrom_eq_zero {blocking : Bool} {paths : List String} :
    (migrationCheckFrom inspect blocking paths).2 = .ok 0 ↔ blocking = false ∧
      ∀ path ∈ paths, ∃ report, inspect path = .ok report ∧ report.safe = true := by
  induction paths generalizing blocking with
  | nil => cases blocking <;> simp [migrationCheckFrom]
  | cons path paths ih =>
      cases hinspect : inspect path with
      | error e => simp [migrationCheckFrom, hinspect]
      | ok report => simp [migrationCheckFrom, hinspect, ih, MigrationSafetyReport.safe, and_assoc]

theorem migrationCheckFrom_eq_one {blocking : Bool} {paths : List String} :
    (migrationCheckFrom inspect blocking paths).2 = .ok 1 ↔
      (∀ path ∈ paths, ∃ report, inspect path = .ok report) ∧ (blocking = true ∨
        ∃ path ∈ paths, ∃ report, inspect path = .ok report ∧ report.safe = false) := by
  induction paths generalizing blocking with
  | nil => cases blocking <;> simp [migrationCheckFrom]
  | cons path paths ih =>
      cases hinspect : inspect path with
      | error e => simp [migrationCheckFrom, hinspect]
      | ok report =>
          simp [migrationCheckFrom, hinspect, ih, MigrationSafetyReport.safe, or_assoc]

theorem migrationCheck_eq_zero {paths : List String} :
    (migrationCheck inspect paths).2 = .ok 0 ↔
      ∀ path ∈ paths, ∃ report, inspect path = .ok report ∧ report.safe = true :=
  migrationCheckFrom_eq_zero.trans (and_iff_right rfl)

theorem migrationCheck_eq_one {paths : List String} :
    (migrationCheck inspect paths).2 = .ok 1 ↔
      (∀ path ∈ paths, ∃ report, inspect path = .ok report) ∧
        ∃ path ∈ paths, ∃ report, inspect path = .ok report ∧ report.safe = false :=
  migrationCheckFrom_eq_one.trans (and_congr_right fun _ => or_iff_right Bool.false_ne_true)

/-! ## What a run executes -/

variable {swallows : Expr → Bool} {P : Call → Prop}

theorem only_headed {Q : Event → Prop} {R : Behaviour Event} (h : R.Only Q) :
    (headed R).Only Q :=
  only_fails.either h

theorem only_unwinds {Q : Event → Prop} (swallowed : Bool) : (unwinds swallowed).Only Q := by
  cases swallowed with
  | false => exact only_fails
  | true => exact only_fails.either only_done

mutual
/-- A plain statement executes calls that the linter comes to. -/
theorem only_runs : ∀ {statement : Stmt} {autocommit : Bool}, statement.plain = true →
    (∀ visit ∈ statementVisits statement autocommit, P visit.1) →
    (statement.runs swallows).Only fun event => P event.call
  | .expr (.call call), autocommit, _, hvisits => by
      refine only_headed ?_
      rintro _ exit rfl event hevent
      cases List.mem_singleton.mp hevent
      exact hvisits (call, autocommit) (List.mem_singleton_self _)
  | .with_ false items body, autocommit, h, hvisits => by
      simp only [Stmt.plain, Bool.and_eq_true] at h
      exact only_headed ((only_blockRuns (plainBlock_of_suite h.2) hvisits).onExit
        (only_headed only_done) (only_unwinds _))
  | .if_ test body orelse, autocommit, h, hvisits => by
      simp only [Stmt.plain, Bool.and_eq_true] at h
      simp only [statementVisits, List.mem_append, or_imp, forall_and] at hvisits
      exact only_headed ((only_blockRuns (plainBlock_of_suite h.1.2) hvisits.1).either
        (only_blockRuns h.2 hvisits.2))
  | .for_ false target iter body orelse, autocommit, h, hvisits => by
      simp only [Stmt.plain, Bool.and_eq_true] at h
      simp only [statementVisits, List.mem_append, or_imp, forall_and] at hvisits
      exact (only_blockRuns (plainBlock_of_suite h.1.2) hvisits.1).loop.andThen
        (only_blockRuns h.2 hvisits.2)
  | .while_ test body orelse, autocommit, h, hvisits => by
      simp only [Stmt.plain, Bool.and_eq_true] at h
      simp only [statementVisits, List.mem_append, or_imp, forall_and] at hvisits
      exact (only_blockRuns (plainBlock_of_suite h.1.2) hvisits.1).loop.andThen
        (only_blockRuns h.2 hvisits.2)
  | .try_ false body handlers orelse finalbody, autocommit, h, hvisits => by
      simp only [Stmt.plain, Bool.and_eq_true] at h
      obtain ⟨⟨⟨hbody, hhandlers⟩, helse⟩, hfinal⟩ := h
      simp only [statementVisits, List.mem_append, or_imp, forall_and] at hvisits
      obtain ⟨hbodyVisits, hhandlerVisits, helseVisits, hfinalVisits⟩ := hvisits
      have hfinally : (blockRuns swallows finalbody).Only fun event => P event.call :=
        only_blockRuns hfinal hfinalVisits
      exact ((only_blockRuns (plainBlock_of_suite hbody) hbodyVisits).onExit
        (only_blockRuns helse helseVisits) (only_handlerRuns hhandlers hhandlerVisits)).onExit
          hfinally (hfinally.andThen only_fails)

theorem only_blockRuns : ∀ {statements : List Stmt} {autocommit : Bool},
    plainBlock statements = true → (∀ visit ∈ visits statements autocommit, P visit.1) →
    (blockRuns swallows statements).Only fun event => P event.call
  | [], _, _, _ => only_done
  | statement :: statements, autocommit, h, hvisits => by
      simp only [plainBlock, Bool.and_eq_true] at h
      simp only [visits, List.mem_append, or_imp, forall_and] at hvisits
      exact (only_runs h.1 hvisits.1).andThen (only_blockRuns h.2 hvisits.2)

theorem only_handlerRuns : ∀ {handlers : List Handler} {autocommit : Bool},
    plainHandlers handlers = true → (∀ visit ∈ handlerVisits handlers autocommit, P visit.1) →
    (handlerRuns swallows handlers).Only fun event => P event.call
  | [], _, _, _ => only_fails
  | ⟨none, body⟩ :: _, autocommit, h, hvisits => by
      simp only [plainHandlers, Bool.and_eq_true] at h
      simp only [handlerVisits, List.mem_append, or_imp, forall_and] at hvisits
      exact only_blockRuns (plainBlock_of_suite h.1.2) hvisits.1
  | ⟨some _, body⟩ :: handlers, autocommit, h, hvisits => by
      simp only [plainHandlers, Bool.and_eq_true] at h
      simp only [handlerVisits, List.mem_append, or_imp, forall_and] at hvisits
      exact only_headed ((only_blockRuns (plainBlock_of_suite h.1.2) hvisits.1).either
        (only_handlerRuns h.2 hvisits.2))
end

/-- Every call that a run of a plain body executes is one that the linter comes to. -/
theorem executed_visited {body : List Stmt} (hplain : plainBlock body = true) {trace : List Event}
    {exit : Exit} (hrun : blockRuns swallows body trace exit) {event : Event}
    (hevent : event ∈ trace) : ∃ autocommit, (event.call, autocommit) ∈ visits body false :=
  only_blockRuns (P := fun call => ∃ autocommit, (call, autocommit) ∈ visits body false) hplain
    (fun visit hvisit => ⟨visit.2, hvisit⟩) trace exit hrun event hevent

/-- The methods of `op` that change nothing. -/
def inquiries : List String := ["f", "get_bind", "get_context"]

/-- The call is an operation on the database. -/
def isOperation (call : Call) : Bool := (opMethod call).any fun method => !inquiries.contains method

mutual
/-- The calls in the headers and the arguments of a plain statement. -/
def Stmt.asides : Stmt → List Call
  | .expr (.call call) => call.inner
  | .with_ _ items body => itemCalls items ++ blockAsides body
  | .if_ test body orelse => test.calls ++ blockAsides body ++ blockAsides orelse
  | .for_ _ target iter body orelse =>
      target.calls ++ iter.calls ++ blockAsides body ++ blockAsides orelse
  | .while_ test body orelse => test.calls ++ blockAsides body ++ blockAsides orelse
  | .try_ _ body handlers orelse finalbody =>
      blockAsides body ++ handlerAsides handlers ++ blockAsides orelse ++ blockAsides finalbody
  | _ => []

def blockAsides : List Stmt → List Call
  | [] => []
  | statement :: statements => statement.asides ++ blockAsides statements

def handlerAsides : List Handler → List Call
  | [] => []
  | ⟨type, body⟩ :: handlers =>
      exprCalls type.toList ++ blockAsides body ++ handlerAsides handlers
end

/-- A run with this trace may execute the call: it is the call of a statement that the run came to,
or it stands in a header or an argument. -/
def MayExecute (body : List Stmt) (trace : List Event) (call : Call) : Prop :=
  (∃ event ∈ trace, event.call = call) ∨ call ∈ blockAsides body

/-! ## What passes -/

/-- The linter comes to the call, and each blocking finding about it is waived, or was left out for
a table that is created before it in the text. -/
def Accepted (upper : String → String) (body : List Stmt) (waivers : List String) (call : Call) :
    Prop :=
  ∃ autocommit, (call, autocommit) ∈ visits body false ∧
    ∀ issue ∈ findings upper [] (call, autocommit), issue.severity = .error →
      issue.code ∈ waivers ∨ ∃ name, Follows upper body call name

variable {upper : String → String}

/-- A safe report has no blocking issue that is not waived. -/
theorem waived_of_safe {report : MigrationSafetyReport} (hsafe : report.safe = true)
    {issue : MigrationSafetyIssue} (hissue : issue ∈ report.issues)
    (herror : issue.severity = .error) : issue.code ∈ report.waivers := by
  by_contra hwaived
  have hblocking : issue ∈ report.blockingIssues := by
    simp [MigrationSafetyReport.blockingIssues, hissue, herror, hwaived]
  rw [MigrationSafetyReport.safe, List.isEmpty_iff] at hsafe
  rw [hsafe] at hblocking
  exact absurd hblocking List.not_mem_nil

theorem accepted_of_visited (i : Inspected upper) (hsafe : i.report.safe = true) {call : Call}
    {autocommit : Bool} (hvisit : (call, autocommit) ∈ visits i.body false) :
    Accepted upper i.body i.report.waivers call := by
  refine ⟨autocommit, hvisit, fun issue hissue herror => ?_⟩
  obtain ⟨before, after, hvisits⟩ := List.append_of_mem hvisit
  have hfound : findings upper _ _ = _ := findings_eq
    (scanVisits upper before ⟨[], []⟩).createdTables (call, autocommit)
  split at hfound
  next hcreated =>
    obtain ⟨name, hname, -, hmem⟩ := isCreated_iff.mp hcreated
    rcases mem_scanVisits_createdTables.mp hmem with hmem | hmem
    · exact absurd hmem List.not_mem_nil
    · exact .inr ⟨name, before, autocommit, after, hvisits, hname, hmem,
        List.ne_nil_of_mem hissue⟩
  next =>
    refine .inl (waived_of_safe hsafe ?_ herror)
    rw [i.issues_eq]
    exact mem_scanVisits_issues.mpr
      (.inr ⟨before, (call, autocommit), after, hvisits, by rwa [hfound]⟩)

/-- What is destructive is exempted by no new table. -/
theorem Accepted.destructive {body : List Stmt} {waivers : List String} {call : Call}
    (h : Accepted upper body waivers call) (hdrop : IsDestructive call) :
    "destructive-change" ∈ waivers := by
  obtain ⟨autocommit, -, hissues⟩ := h
  obtain ⟨operation, hoperation, hop⟩ := hdrop
  have hcreate : operation ≠ "create_table" := by
    rintro rfl
    exact absurd hoperation (by decide)
  have hfound : findings upper [] (call, autocommit) = destructiveIssues operation call := by
    unfold findings
    rw [hop]
    dsimp only
    rw [if_neg hcreate, callIssues, if_pos hoperation]
  rw [hfound] at hissues
  rcases hissues _ (List.mem_singleton_self _) rfl with hwaived | ⟨name, _, _, _, -, hname, -⟩
  · exact hwaived
  · rw [exemptTable, hop, Option.bind_some, exemptTableOf_destructive hoperation] at hname
    cases hname

theorem Inspected.waivers_eq (i : Inspected upper) :
    extractWaivers i.tree = .ok i.report.waivers := by
  have h := i.inspected
  unfold inspectMigrationSource at h
  rw [i.upgrade] at h
  cases hw : extractWaivers i.tree with
  | error error =>
      rw [hw] at h
      cases h
  | ok waivers =>
      rw [hw] at h
      rw [← Except.ok.inj h]

theorem blockRuns_singleton {statement : Stmt} {trace : List Event}
    (h : statement.runs swallows trace .normal) :
    blockRuns swallows [statement] trace .normal := by
  have hthen : Then (statement.runs swallows) Done (trace ++ []) .normal := .intro h .intro
  rw [List.append_nil] at hthen
  rwa [blockRuns, blockRuns]

/-- `op.drop_table(op.f("legacy"))` on a line. -/
def dropLegacy (line : Nat) : Call :=
  opCall line "drop_table" [.call (opCall line "f" [.constant (.str "legacy")])]

/-- The table is dropped where it is there. -/
def dropWherePresent : List Stmt := [.if_ (.name "present") [.expr (.call (dropLegacy 5))] []]

/-- A revision that waives the drop of a table. -/
def retirement : List Stmt :=
  [.assign [.name "migration_safety_allow"] (.display [.constant (.str "destructive-change")]),
    .functionDef false "upgrade" [] dropWherePresent]

end ProdkitStorage.Migrations
