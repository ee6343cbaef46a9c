import ProdkitStorage.Migrations.Safety

/-!
# What the linter comes to

`scan_block` comes to the calls of a body one after the other, each with the flag of the
`autocommit_block()` around it (`visits`), and scans them in this order (`scanBlock_eq`).
What it reports of a call is decided by the tables created so far in one way only: where the
table of the call is among them, nothing is reported (`findings_eq`).
-/

namespace ProdkitStorage.Migrations

/-! ## The walk -/

mutual
/-- The calls that `scan_block` comes to, with their flags. -/
def visits : List Stmt → Bool → List (Call × Bool)
  | [], _ => []
  | statement :: statements, autocommit =>
      statementVisits statement autocommit ++ visits statements autocommit

def statementVisits : Stmt → Bool → List (Call × Bool)
  | .with_ false items body, autocommit =>
      visits body (autocommit || items.any fun item => isAutocommitContext item.contextExpr)
  | .if_ _ body orelse, autocommit => visits body autocommit ++ visits orelse autocommit
  | .for_ false _ _ body orelse, autocommit => visits body autocommit ++ visits orelse autocommit
  | .while_ _ body orelse, autocommit => visits body autocommit ++ visits orelse autocommit
  | .try_ false body handlers orelse finalbody, autocommit =>
      visits body autocommit ++ (handlerVisits handlers autocommit ++
        (visits orelse autocommit ++ visits finalbody autocommit))
  | statement, autocommit => (statementCall statement).toList.map fun call => (call, autocommit)

def handlerVisits : List Handler → Bool → List (Call × Bool)
  | [], _ => []
  | ⟨_, body⟩ :: handlers, autocommit => visits body autocommit ++ handlerVisits handlers autocommit
end

variable (upper : String → String)

/-- The calls, scanned in order. -/
def scanVisits (calls : List (Call × Bool)) (s : UpgradeScanner) : UpgradeScanner :=
  calls.foldl (fun s visit => scanCall upper visit.1 visit.2 s) s

variable {upper}

theorem scanVisits_append (calls calls' : List (Call × Bool)) (s : UpgradeScanner) :
    scanVisits upper (calls ++ calls') s = scanVisits upper calls' (scanVisits upper calls s) :=
  List.foldl_append

mutual
/-- The linter scans the calls it comes to. -/
theorem scanBlock_eq : ∀ (statements : List Stmt) (autocommit : Bool) (s : UpgradeScanner),
    scanBlock upper statements autocommit s = scanVisits upper (visits statements autocommit) s
  | [], _, _ => rfl
  | statement :: statements, autocommit, s => by
      rw [scanBlock, visits, scanVisits_append, scanStatement_eq, scanBlock_eq]

theorem scanStatement_eq : ∀ (statement : Stmt) (autocommit : Bool) (s : UpgradeScanner),
    scanStatement upper statement autocommit s =
      scanVisits upper (statementVisits statement autocommit) s
  | .with_ false _ body, _, s => scanBlock_eq body _ s
  | .with_ true _ _, _, _ => rfl
  | .if_ _ body orelse, autocommit, s => by
      rw [scanStatement, statementVisits, scanVisits_append, scanBlock_eq, scanBlock_eq]
  | .for_ false _ _ body orelse, autocommit, s => by
      rw [scanStatement, statementVisits, scanVisits_append, scanBlock_eq, scanBlock_eq]
  | .for_ true _ _ _ _, _, _ => rfl
  | .while_ _ body orelse, autocommit, s => by
      rw [scanStatement, statementVisits, scanVisits_append, scanBlock_eq, scanBlock_eq]
  | .try_ false body handlers orelse finalbody, autocommit, s => by
      rw [scanStatement, statementVisits, scanVisits_append, scanVisits_append, scanVisits_append,
        scanBlock_eq, scanHandlers_eq, scanBlock_eq, scanBlock_eq]
  | .try_ true _ _ _ _, _, _ => rfl
  | .expr value, _, _ => by cases value <;> rfl
  | .assign _ _, _, _ => rfl
  | .annAssign _ _ _, _, _ => rfl
  | .simple _, _, _ => rfl
  | .match_ _ _, _, _ => rfl
  | .functionDef _ _ _ _, _, _ => rfl
  | .classDef _ _ _, _, _ => rfl

theorem scanHandlers_eq : ∀ (handlers : List Handler) (autocommit : Bool) (s : UpgradeScanner),
    scanHandlers upper handlers autocommit s =
      scanVisits upper (handlerVisits handlers autocommit) s
  | [], _, _ => rfl
  | ⟨_, body⟩ :: handlers, autocommit, s => by
      rw [scanHandlers, handlerVisits, scanVisits_append, scanBlock_eq, scanHandlers_eq]
end

/-! ## One call -/

/-- The table that a call adds to `created_tables`. -/
def createdTable (call : Call) : Option String :=
  if opMethod call = some "create_table" then newTable call else none

variable (upper) in
/-- What is reported of a call where these tables were created. -/
def findings (createdTables : List String) (visit : Call × Bool) : List MigrationSafetyIssue :=
  match opMethod visit.1 with
  | none => []
  | some operation =>
      if operation = "create_table" then []
      else callIssues upper createdTables operation visit.1 visit.2

theorem findings_indexCall (createdTables : List String) (line : Nat) (table : String) :
    findings upper createdTables (indexCall line table, false) =
      if isCreated createdTables (some table) then []
      else [⟨"blocking-index", .error, line,
        "index on an existing table must use postgresql_concurrently=True"⟩] := by
  rfl

theorem scanCall_createdTables (call : Call) (autocommit : Bool) (s : UpgradeScanner) :
    (scanCall upper call autocommit s).createdTables =
      (createdTable call).toList ++ s.createdTables := by
  unfold scanCall createdTable
  cases opMethod call with
  | none => rfl
  | some operation =>
      dsimp only
      split
      · next hcreate => rw [if_pos (congrArg some hcreate)]
      · next hother => rw [if_neg fun heq => hother (Option.some.inj heq)]; rfl

theorem scanCall_issues (call : Call) (autocommit : Bool) (s : UpgradeScanner) :
    (scanCall upper call autocommit s).issues =
      s.issues ++ findings upper s.createdTables (call, autocommit) := by
  unfold scanCall findings
  cases opMethod call with
  | none => simp
  | some operation =>
      dsimp only
      split
      · simp
      · rfl

/-- The table whose creation exempts an operation. -/
def exemptTableOf (operation : String) (call : Call) : Option String :=
  if operation = "create_index" then stringArgument call 1 "table_name"
  else if operation ∈ ["create_check_constraint", "create_foreign_key"] then
    constraintTable operation call
  else if operation = "add_column" then stringArgument call 0 "table_name"
  else none

/-- The table whose creation exempts a call. -/
def exemptTable (call : Call) : Option String :=
  (opMethod call).bind fun operation => exemptTableOf operation call

theorem isCreated_iff {createdTables : List String} {table : Option String} :
    isCreated createdTables table = true ↔
      ∃ name, table = some name ∧ name ≠ "" ∧ name ∈ createdTables := by
  cases table with
  | none => simp [isCreated]
  | some name => simp [isCreated]

theorem ne_empty_of_createdTable {call : Call} {table : String}
    (h : createdTable call = some table) : table ≠ "" := by
  unfold createdTable newTable at h
  split at h
  · simpa using (Option.filter_eq_some_iff.mp h).2
  · cases h

theorem isCreated_nil (table : Option String) : isCreated [] table = false := by
  cases table with
  | none => rfl
  | some name => simp [isCreated]

theorem exemptTableOf_destructive {operation : String} (h : operation ∈ destructiveOps)
    (call : Call) : exemptTableOf operation call = none := by
  simp only [destructiveOps, List.mem_cons, List.not_mem_nil, or_false] at h
  rcases h with rfl | rfl | rfl | rfl <;> rfl

theorem indexIssues_eq (createdTables : List String) (call : Call) (autocommit : Bool) :
    indexIssues createdTables call autocommit =
      if isCreated createdTables (stringArgument call 1 "table_name") then []
      else indexIssues [] call autocommit := by
  unfold indexIssues
  rw [isCreated_nil, if_neg Bool.false_ne_true]

theorem constraintIssues_eq (createdTables : List String) (operation : String) (call : Call) :
    constraintIssues createdTables operation call =
      if isCreated createdTables (constraintTable operation call) then []
      else constraintIssues [] operation call := by
  unfold constraintIssues
  rw [isCreated_nil, if_neg Bool.false_ne_true]

theorem columnIssues_eq (createdTables : List String) (call : Call) :
    columnIssues createdTables call =
      if isCreated createdTables (stringArgument call 0 "table_name") then []
      else columnIssues [] call := by
  unfold columnIssues
  rw [isCreated_nil, if_neg Bool.false_ne_true]

theorem callIssues_eq (createdTables : List String) (operation : String) (call : Call)
    (autocommit : Bool) :
    callIssues upper createdTables operation call autocommit =
      if isCreated createdTables (exemptTableOf operation call) then []
      else callIssues upper [] operation call autocommit := by
  unfold callIssues
  split
  · next hdrop => rw [exemptTableOf_destructive hdrop]; rfl
  · unfold exemptTableOf
    split
    · exact indexIssues_eq createdTables call autocommit
    · split
      · exact constraintIssues_eq createdTables operation call
      · split
        · exact columnIssues_eq createdTables call
        · rfl

/-- Created tables matter where the table of the call is one of them, and only there. -/
theorem findings_eq (createdTables : List String) (visit : Call × Bool) :
    findings upper createdTables visit =
      if isCreated createdTables (exemptTable visit.1) then [] else findings upper [] visit := by
  unfold findings exemptTable
  cases opMethod visit.1 with
  | none => rfl
  | some operation =>
      dsimp only [Option.bind_some]
      split
      · rw [ite_self]
      · exact callIssues_eq createdTables operation visit.1 visit.2

/-- `op.drop_table()` and its like. -/
def IsDestructive (call : Call) : Prop :=
  ∃ operation ∈ destructiveOps, opMethod call = some operation

theorem findings_destructive {call : Call} (h : IsDestructive call) (createdTables : List String)
    (autocommit : Bool) :
    ∃ issue ∈ findings upper createdTables (call, autocommit),
      issue.code = "destructive-change" ∧ issue.line = call.place.line := by
  obtain ⟨operation, hdrop, hop⟩ := h
  have hcreate : operation ≠ "create_table" := by
    rintro rfl
    exact absurd hdrop (by decide)
  have hfound :
      findings upper createdTables (call, autocommit) = destructiveIssues operation call := by
    unfold findings
    rw [hop]
    dsimp only
    rw [if_neg hcreate, callIssues, if_pos hdrop]
  rw [hfound]
  exact ⟨_, List.mem_singleton_self _, rfl, rfl⟩

/-- Issues at the line of a call, none of them `destructive-change`. -/
def OtherIssues (call : Call) (issues : List MigrationSafetyIssue) : Prop :=
  ∀ issue ∈ issues, issue.code ≠ "destructive-change" ∧ issue.line = call.place.line

theorem otherIssues_nil (call : Call) : OtherIssues call [] := fun _ h => absurd h List.not_mem_nil

theorem otherIssues_errorAt {call : Call} {code : String} (hcode : code ≠ "destructive-change")
    (message : String) : OtherIssues call (errorAt call code message) := by
  intro issue hissue
  rw [List.mem_singleton.mp hissue]
  exact ⟨hcode, rfl⟩

theorem otherIssues_warningAt {call : Call} {code : String} (hcode : code ≠ "destructive-change")
    (message : String) : OtherIssues call (warningAt call code message) := by
  intro issue hissue
  rw [List.mem_singleton.mp hissue]
  exact ⟨hcode, rfl⟩

theorem OtherIssues.append {call : Call} {issues issues' : List MigrationSafetyIssue}
    (h : OtherIssues call issues) (h' : OtherIssues call issues') :
    OtherIssues call (issues ++ issues') := by
  intro issue hissue
  rcases List.mem_append.mp hissue with hissue | hissue
  · exact h issue hissue
  · exact h' issue hissue

theorem OtherIssues.ite {call : Call} {issues issues' : List MigrationSafetyIssue} {p : Prop}
    [Decidable p] (h : OtherIssues call issues) (h' : OtherIssues call issues') :
    OtherIssues call (if p then issues else issues') := by
  split
  · exact h
  · exact h'

theorem otherIssues_column (createdTables : List String) (call : Call) :
    OtherIssues call (columnIssues createdTables call) := by
  unfold columnIssues
  refine .ite (otherIssues_nil call) ?_
  split
  · exact otherIssues_nil call
  · exact .ite (otherIssues_errorAt (by decide) _) (otherIssues_nil call)

/-- The issues of the other operations. -/
theorem otherIssues_callIssues (createdTables : List String) {operation : String} (call : Call)
    (autocommit : Bool) (hother : operation ∉ destructiveOps) :
    OtherIssues call (callIssues upper createdTables operation call autocommit) := by
  unfold callIssues
  rw [if_neg hother]
  refine .ite ?_ (.ite ?_ (.ite (otherIssues_column createdTables call) (.ite ?_ (.ite ?_
    (otherIssues_nil call)))))
  · exact .ite (otherIssues_nil call) (.ite (otherIssues_errorAt (by decide) _)
      (.ite (otherIssues_errorAt (by decide) _) (otherIssues_nil call)))
  · exact .ite (otherIssues_nil call)
      (.ite (otherIssues_errorAt (by decide) _) (otherIssues_nil call))
  · exact .append (.ite (otherIssues_errorAt (by decide) _) (otherIssues_nil call))
      (.ite (otherIssues_warningAt (by decide) _) (otherIssues_nil call))
  · exact .ite (otherIssues_errorAt (by decide) _) (otherIssues_warningAt (by decide) _)

/-- What is reported of a call is at its line, and only a destructive one is reported as that. -/
theorem of_mem_findings {createdTables : List String} {visit : Call × Bool}
    {issue : MigrationSafetyIssue} (h : issue ∈ findings upper createdTables visit) :
    (IsDestructive visit.1 ∨ issue.code ≠ "destructive-change") ∧
      issue.line = visit.1.place.line := by
  unfold findings at h
  cases hop : opMethod visit.1 with
  | none =>
      rw [hop] at h
      exact absurd h List.not_mem_nil
  | some operation =>
      rw [hop] at h
      dsimp only at h
      split at h
      · exact absurd h List.not_mem_nil
      · by_cases hdrop : operation ∈ destructiveOps
        · rw [callIssues, if_pos hdrop] at h
          exact ⟨.inl ⟨operation, hdrop, hop⟩, by rw [List.mem_singleton.mp h]⟩
        · have hother := otherIssues_callIssues createdTables visit.1 visit.2 hdrop issue h
          exact ⟨.inr hother.1, hother.2⟩

theorem destructive_of_mem_findings {createdTables : List String} {visit : Call × Bool}
    {issue : MigrationSafetyIssue} (h : issue ∈ findings upper createdTables visit)
    (hcode : issue.code = "destructive-change") :
    IsDestructive visit.1 ∧ issue.line = visit.1.place.line :=
  (of_mem_findings h).imp_left fun hreported => hreported.resolve_right (not_not_intro hcode)

theorem line_of_mem_findings {createdTables : List String} {visit : Call × Bool}
    {issue : MigrationSafetyIssue} (h : issue ∈ findings upper createdTables visit) :
    issue.line = visit.1.place.line :=
  (of_mem_findings h).2

theorem mem_indexIssues {createdTables : List String} {call : Call} {autocommit autocommit' : Bool}
    {issue : MigrationSafetyIssue} (h : issue ∈ indexIssues createdTables call autocommit) :
    issue ∈ indexIssues createdTables call autocommit' ∨
      issue.code = "concurrent-index-transaction" := by
  unfold indexIssues at h ⊢
  split at h
  · exact absurd h List.not_mem_nil
  · next hexists =>
      rw [if_neg hexists]
      split at h
      · next hblocking =>
          rw [if_pos hblocking]
          exact .inl h
      · split at h
        · rw [List.mem_singleton.mp h]
          exact .inr rfl
        · exact absurd h List.not_mem_nil

/-- The flag makes a difference to `concurrent-index-transaction` only. -/
theorem mem_findings_flag {createdTables : List String} {call : Call}
    {autocommit autocommit' : Bool} {issue : MigrationSafetyIssue}
    (h : issue ∈ findings upper createdTables (call, autocommit)) :
    issue ∈ findings upper createdTables (call, autocommit') ∨
      issue.code = "concurrent-index-transaction" := by
  unfold findings at h ⊢
  dsimp only at h ⊢
  cases hop : opMethod call with
  | none =>
      rw [hop] at h
      exact absurd h List.not_mem_nil
  | some operation =>
      rw [hop] at h
      dsimp only at h ⊢
      split at h
      · exact absurd h List.not_mem_nil
      · next hcreate =>
          rw [if_neg hcreate]
          unfold callIssues at h ⊢
          split at h
          · next hdrop =>
              rw [if_pos hdrop]
              exact .inl h
          · next hdrop =>
              rw [if_neg hdrop]
              split at h
              · next hindex =>
                  rw [if_pos hindex]
                  exact mem_indexIssues h
              · next hindex =>
                  rw [if_neg hindex]
                  exact .inl h

/-! ## The whole walk -/

theorem visits_append (statements statements' : List Stmt) (autocommit : Bool) :
    visits (statements ++ statements') autocommit =
      visits statements autocommit ++ visits statements' autocommit := by
  induction statements with
  | nil => rfl
  | cons statement statements ih => rw [List.cons_append, visits, visits, ih, List.append_assoc]

theorem handlerVisits_append (handlers handlers' : List Handler) (autocommit : Bool) :
    handlerVisits (handlers ++ handlers') autocommit =
      handlerVisits handlers autocommit ++ handlerVisits handlers' autocommit := by
  induction handlers with
  | nil => rfl
  | cons handler handlers ih =>
      obtain ⟨type, body⟩ := handler
      rw [List.cons_append, handlerVisits, handlerVisits, ih, List.append_assoc]

mutual
/-- The calls come to do not depend on the flag. -/
theorem map_visits : ∀ (statements : List Stmt) (autocommit autocommit' : Bool),
    (visits statements autocommit).map Prod.fst = (visits statements autocommit').map Prod.fst
  | [], _, _ => rfl
  | statement :: statements, autocommit, autocommit' => by
      rw [visits, visits, List.map_append, List.map_append,
        map_statementVisits statement autocommit autocommit', map_visits statements]

theorem map_statementVisits : ∀ (statement : Stmt) (autocommit autocommit' : Bool),
    (statementVisits statement autocommit).map Prod.fst =
      (statementVisits statement autocommit').map Prod.fst
  | .with_ false _ body, _, _ => map_visits body _ _
  | .if_ _ body orelse, autocommit, autocommit' => by
      rw [statementVisits, statementVisits, List.map_append, List.map_append,
        map_visits body autocommit autocommit', map_visits orelse autocommit autocommit']
  | .for_ false _ _ body orelse, autocommit, autocommit' => by
      rw [statementVisits, statementVisits, List.map_append, List.map_append,
        map_visits body autocommit autocommit', map_visits orelse autocommit autocommit']
  | .while_ _ body orelse, autocommit, autocommit' => by
      rw [statementVisits, statementVisits, List.map_append, List.map_append,
        map_visits body autocommit autocommit', map_visits orelse autocommit autocommit']
  | .try_ false body handlers orelse finalbody, autocommit, autocommit' => by
      simp only [statementVisits, List.map_append]
      rw [map_visits body autocommit autocommit', map_handlerVisits handlers autocommit autocommit',
        map_visits orelse autocommit autocommit', map_visits finalbody autocommit autocommit']
  | .expr value, _, _ => by cases value <;> rfl
  | .with_ true _ _, _, _ => rfl
  | .for_ true _ _ _ _, _, _ => rfl
  | .try_ true _ _ _ _, _, _ => rfl
  | .assign _ _, _, _ => rfl
  | .annAssign _ _ _, _, _ => rfl
  | .simple _, _, _ => rfl
  | .match_ _ _, _, _ => rfl
  | .functionDef _ _ _ _, _, _ => rfl
  | .classDef _ _ _, _, _ => rfl

theorem map_handlerVisits : ∀ (handlers : List Handler) (autocommit autocommit' : Bool),
    (handlerVisits handlers autocommit).map Prod.fst =
      (handlerVisits handlers autocommit').map Prod.fst
  | [], _, _ => rfl
  | ⟨_, body⟩ :: handlers, autocommit, autocommit' => by
      rw [handlerVisits, handlerVisits, List.map_append, List.map_append,
        map_visits body autocommit autocommit', map_handlerVisits handlers]
end

theorem scanVisits_cons (visit : Call × Bool) (calls : List (Call × Bool)) (s : UpgradeScanner) :
    scanVisits upper (visit :: calls) s =
      scanVisits upper calls (scanCall upper visit.1 visit.2 s) := rfl

theorem mem_scanVisits_createdTables {calls : List (Call × Bool)} {s : UpgradeScanner}
    {table : String} :
    table ∈ (scanVisits upper calls s).createdTables ↔
      table ∈ s.createdTables ∨ ∃ visit ∈ calls, createdTable visit.1 = some table := by
  induction calls generalizing s with
  | nil => simp [scanVisits]
  | cons visit calls ih =>
      rw [scanVisits_cons, ih, scanCall_createdTables, List.mem_append, Option.mem_toList]
      simp only [List.mem_cons, exists_eq_or_imp]
      exact or_assoc.symm.trans (or_congr_left or_comm) |>.symm

/-- What is reported, by the call it is reported of. -/
theorem mem_scanVisits_issues {calls : List (Call × Bool)} {s : UpgradeScanner}
    {issue : MigrationSafetyIssue} :
    issue ∈ (scanVisits upper calls s).issues ↔ issue ∈ s.issues ∨
      ∃ before visit after, calls = before ++ visit :: after ∧
        issue ∈ findings upper (scanVisits upper before s).createdTables visit := by
  induction calls generalizing s with
  | nil =>
      simp [scanVisits]
  | cons first calls ih =>
      rw [scanVisits_cons, ih, scanCall_issues, List.mem_append, or_assoc]
      refine or_congr_right ?_
      constructor
      · rintro (hfirst | ⟨before, visit, after, hcalls, hmem⟩)
        · exact ⟨[], first, calls, rfl, hfirst⟩
        · exact ⟨first :: before, visit, after, by rw [hcalls, List.cons_append], hmem⟩
      · rintro ⟨before, visit, after, hcalls, hmem⟩
        cases before with
        | nil =>
            obtain ⟨rfl, rfl⟩ := List.cons.inj hcalls
            exact .inl hmem
        | cons other before =>
            obtain ⟨rfl, hrest⟩ := List.cons.inj hcalls
            exact .inr ⟨before, visit, after, hrest, hmem⟩

end ProdkitStorage.Migrations
