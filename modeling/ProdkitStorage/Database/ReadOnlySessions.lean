import ProdkitStorage.Database.Tenant
import ProdkitStorage.Foundation.TransactionModes

/-!
# Read sessions and write sessions of one pool

The read-only mode that `database/tenant.py` gives to the transactions of a read session.  Without
a read URL both kinds of sessions share the engine of `SyncDatabase`, so that only the hook tells
their transactions apart.  On a connection that sessions borrow one after another, each runs
whatever commands it likes, and the hook at the begin of a transaction and of each savepoint.

`transaction_modes`: which commands a read session may run without ever writing, why row-level
security makes every command harmless, and that a write session is never left read-only by the
ones before it.  The text of a statement may also end the transaction (`COMMIT`, `ROLLBACK`):
the driver then begins another one, in the default mode, and no hook runs.  No connection is in
`AUTOCOMMIT`.
-/

namespace ProdkitStorage.Database.ReadOnly

open ProdkitStorage.Foundation
open ProdkitStorage.Foundation.TransactionModes
open ProdkitStorage.Python

/-! ## The hook -/

/-- What `_apply_context_after_begin` executes on the connection, and how it ends. -/
def hookCommands (settings : StorageSettings) (readOnly : Bool) (context : RequestContext) :
    List Command × Except PyError Unit :=
  let commands := if readOnly then [.setReadOnly] else []
  if !settings.tenantRlsEnabled then (commands, .ok ())
  else if settings.tenantRequired && context.tenantId.isNone then
    (commands, .error (.tenantContextError
      "a tenant context is required for this database transaction"))
  else (commands ++ (contextValues settings context).map fun _ => .query, .ok ())

/-- The commands one after another. -/
def executeAll (t : OpenTransaction) (commands : List Command) : OpenTransaction :=
  commands.foldl (fun t command => (t.execute command).1) t

/-! ## Sessions on a connection -/

/-- A connection of the pool. -/
structure State where
  /-- `default_transaction_read_only`. -/
  defaultMode : Bool
  /-- The session that has borrowed it, whether it is for reading, and its transaction. -/
  session : Option (Bool × OpenTransaction)

/-- What happens on the connection. -/
inductive Event where
  /-- A session begins a transaction, and the hook runs. -/
  | begin_ (readOnly : Bool) (outcome : Except PyError Unit)
  /-- A savepoint begins, and the hook runs. -/
  | beginNested (outcome : Except PyError Unit)
  | command (command : Command) (succeeds : Bool)
  /-- The text of a statement ends the transaction, and the next one begins.  The statements of
  the first may have changed the default. -/
  | restart (defaultMode : Bool)
  /-- The transaction ends.  Its statements may have changed the default. -/
  | finish (defaultMode : Bool)

/-- One step.  After a hook that raised, the session may go on all the same. -/
inductive Step (settings : StorageSettings) : State → Event → State → Prop where
  | begin_ {s : State} {readOnly : Bool} {commands : List Command}
      {outcome : Except PyError Unit} (current : Option RequestContext) :
      s.session = none →
      hookCommands settings readOnly (getRequestContext current) = (commands, outcome) →
      Step settings s (.begin_ readOnly outcome)
        { s with session := some (readOnly, executeAll { mode := s.defaultMode } commands) }
  | beginNested {s : State} {readOnly : Bool} {t nested : OpenTransaction} {commands : List Command}
      {outcome : Except PyError Unit} (current : Option RequestContext) :
      s.session = some (readOnly, t) → t.execute .savepoint = (nested, true) →
      hookCommands settings readOnly (getRequestContext current) = (commands, outcome) →
      Step settings s (.beginNested outcome)
        { s with session := some (readOnly, executeAll nested commands) }
  | command {s : State} {readOnly succeeds : Bool} {t after : OpenTransaction} {command : Command} :
      s.session = some (readOnly, t) → t.execute command = (after, succeeds) →
      Step settings s (.command command succeeds) { s with session := some (readOnly, after) }
  | restart {s : State} {readOnly : Bool} {t : OpenTransaction} (defaultMode : Bool) :
      s.session = some (readOnly, t) →
      Step settings s (.restart defaultMode)
        ⟨defaultMode, some (readOnly, { mode := defaultMode })⟩
  | finish (s : State) (defaultMode : Bool) : s.session ≠ none →
      Step settings s (.finish defaultMode) ⟨defaultMode, none⟩

/-- The sessions that borrow a connection, whose default the engine has set. -/
def sessions (settings : StorageSettings) (defaultMode : Bool) : System State Event where
  init s := s = ⟨defaultMode, none⟩
  step := Step settings

/-! ## Conditions on the steps -/

/-- A read session does not make its transaction a writing one before its first query, and it
ends it by a statement only where the default is the reading mode. -/
def LeavesReadOnly (s : State) : Event → Prop
  | .command command _ => ∀ t, s.session = some (true, t) → t.Keeps true command
  | .restart defaultMode => ∀ t, s.session = some (true, t) → defaultMode = true
  | _ => True

/-- A transaction that begins has its context. -/
def HasContext (_ : State) : Event → Prop
  | .begin_ _ outcome => outcome = .ok ()
  | .restart _ => False
  | _ => True

/-- A write session does not make its transaction read-only, and no session makes it the
default. -/
def LeavesWriting (s : State) : Event → Prop
  | .command command _ => ∀ t, s.session = some (false, t) → t.Keeps false command
  | .restart defaultMode => defaultMode = false
  | .finish defaultMode => defaultMode = false
  | _ => True

/-! ## What the hook does -/

variable {settings : StorageSettings}

theorem executeAll_append (t : OpenTransaction) (commands commands' : List Command) :
    executeAll t (commands ++ commands') = executeAll (executeAll t commands) commands' :=
  List.foldl_append

theorem executeAll_cons (t : OpenTransaction) (command : Command) (commands : List Command) :
    executeAll t (command :: commands) = executeAll (t.execute command).1 commands :=
  rfl

/-- The hook is the one of the tenant context, which installs the settings by these queries. -/
theorem hook_agrees {context : RequestContext} {connection : Connection} {t : OpenTransaction}
    {readOnly : Bool} (hlive : t.failed = false) (hmode : connection.transaction = some t.mode) :
    (applyContextAfterBegin (some settings) readOnly context connection).2 =
        (hookCommands settings readOnly context).2 ∧
      (applyContextAfterBegin (some settings) readOnly context connection).1.transaction =
        some (executeAll t (hookCommands settings readOnly context).1).mode := by
  have hfirst : (executeAll t (if readOnly then [.setReadOnly] else [])) =
      { t with mode := readOnly || t.mode } := by
    cases readOnly with
    | false => rfl
    | true => simp [executeAll, OpenTransaction.execute, hlive]
  have htransaction : (if readOnly then { connection with transaction := some true }
      else connection).transaction = some (readOnly || t.mode) := by
    cases readOnly with
    | false => exact hmode
    | true => rfl
  simp only [applyContextAfterBegin, hookCommands]
  split
  · exact ⟨rfl, htransaction.trans (by rw [hfirst])⟩
  split
  · exact ⟨rfl, htransaction.trans (by rw [hfirst])⟩
  · refine ⟨rfl, htransaction.trans ?_⟩
    rw [executeAll_append, hfirst]
    simp [contextValues, executeAll, OpenTransaction.execute, hlive]

/-- The hook makes a read session's transaction read-only, and then queries. -/
theorem hookCommands_eq {readOnly : Bool} {context : RequestContext} {commands : List Command}
    {outcome : Except PyError Unit}
    (h : hookCommands settings readOnly context = (commands, outcome)) :
    ∃ queries, commands = (if readOnly then [.setReadOnly] else []) ++
        List.replicate queries .query ∧
      (settings.tenantRlsEnabled = true → outcome = .ok () → queries ≠ 0) := by
  simp only [hookCommands] at h
  split at h
  · next hdisabled =>
      obtain ⟨rfl, -⟩ := Prod.mk.inj h
      refine ⟨0, by simp, fun henabled => ?_⟩
      simp [henabled] at hdisabled
  split at h
  · obtain ⟨rfl, rfl⟩ := Prod.mk.inj h
    exact ⟨0, by simp, fun _ h => absurd h (by simp)⟩
  · obtain ⟨rfl, -⟩ := Prod.mk.inj h
    exact ⟨3, rfl, fun _ _ => by simp⟩

/-- What every command of a list keeps, the list keeps. -/
theorem executeAll_invariant {I : OpenTransaction → Prop} {commands : List Command}
    (hkeeps : ∀ command ∈ commands, ∀ t, I t → I (t.execute command).1) {t : OpenTransaction}
    (h : I t) : I (executeAll t commands) := by
  induction commands generalizing t with
  | nil => exact h
  | cons command commands ih =>
      obtain ⟨hcommand, hcommands⟩ := List.forall_mem_cons.mp hkeeps
      exact ih hcommands (hcommand t h)

theorem queries_uniform {t : OpenTransaction} {mode : Bool} (h : t.Uniform mode) (queries : Nat) :
    (executeAll t (List.replicate queries .query)).Uniform mode := by
  refine executeAll_invariant (fun command hcommand t ht => ?_) h
  rw [List.eq_of_mem_replicate hcommand]
  exact ht.execute .query trivial

/-- The hook keeps the mode of a transaction that has that of its session. -/
theorem hook_uniform {t : OpenTransaction} {mode readOnly : Bool} (h : t.Uniform mode)
    (hreadOnly : readOnly = true → mode = true) {context : RequestContext}
    {commands : List Command} {outcome : Except PyError Unit}
    (hhook : hookCommands settings readOnly context = (commands, outcome)) :
    (executeAll t commands).Uniform mode := by
  obtain ⟨queries, rfl, -⟩ := hookCommands_eq hhook
  rw [executeAll_append]
  refine queries_uniform ?_ queries
  cases readOnly with
  | false => exact h
  | true => exact h.execute .setReadOnly (.inl (hreadOnly rfl))

/-- A transaction begins in the mode of its session, where the default is the writing one. -/
theorem hook_begin_uniform {defaultMode readOnly : Bool}
    (hdefault : readOnly = true ∨ defaultMode = false) {context : RequestContext}
    {commands : List Command} {outcome : Except PyError Unit}
    (hhook : hookCommands settings readOnly context = (commands, outcome)) :
    (executeAll { mode := defaultMode } commands).Uniform readOnly := by
  obtain ⟨queries, rfl, -⟩ := hookCommands_eq hhook
  rw [executeAll_append]
  refine queries_uniform ?_ queries
  cases readOnly with
  | false => exact ⟨hdefault.resolve_left Bool.false_ne_true, by simp [executeAll]⟩
  | true => exact ⟨rfl, by simp [executeAll, OpenTransaction.execute]⟩

/-- A hook that installs the context has taken a snapshot. -/
theorem hook_queried (henabled : settings.tenantRlsEnabled = true) {defaultMode readOnly : Bool}
    {context : RequestContext} {commands : List Command}
    (hhook : hookCommands settings readOnly context = (commands, .ok ())) :
    (executeAll { mode := defaultMode } commands).queried = true := by
  obtain ⟨queries, rfl, hqueries⟩ := hookCommands_eq hhook
  obtain ⟨queries, rfl⟩ := Nat.exists_eq_succ_of_ne_zero (hqueries henabled rfl)
  rw [executeAll_append, List.replicate_succ, executeAll_cons]
  have hfirst : ((executeAll { mode := defaultMode }
      (if readOnly then [.setReadOnly] else [])).execute .query).1.queried = true := by
    cases readOnly with
    | false => rfl
    | true => rfl
  exact executeAll_invariant (I := fun t => t.queried = true)
    (fun command _ t ht => OpenTransaction.queried_execute ht command) hfirst

/-! ## Runs -/

/-- The transaction of a session of the kind has the mode at every level. -/
def Holds (readOnly : Bool) (s : State) : Prop :=
  ∀ t, s.session = some (readOnly, t) → t.Uniform readOnly

theorem Step.holds {readOnly : Bool} {s u : State} {event : Event}
    (hstep : Step settings s event u) (hdefault : readOnly = true ∨ s.defaultMode = false)
    (hkeeps : ∀ command succeeds, event = .command command succeeds →
      ∀ t, s.session = some (readOnly, t) → t.Keeps readOnly command)
    (hrestarts : ∀ defaultMode, event = .restart defaultMode →
      ∀ t, s.session = some (readOnly, t) → defaultMode = readOnly)
    (hs : Holds readOnly s) : Holds readOnly u := by
  intro t ht
  cases hstep with
  | begin_ current hidle hhook =>
      obtain ⟨rfl, rfl⟩ := Prod.mk.inj (Option.some.inj ht)
      exact hook_begin_uniform hdefault hhook
  | beginNested current hsession hsavepoint hhook =>
      obtain ⟨rfl, rfl⟩ := Prod.mk.inj (Option.some.inj ht)
      have hnested := (hs _ hsession).execute .savepoint trivial
      rw [hsavepoint] at hnested
      exact hook_uniform hnested id hhook
  | command hsession hexecute =>
      obtain ⟨rfl, rfl⟩ := Prod.mk.inj (Option.some.inj ht)
      have hafter := (hs _ hsession).execute _ (hkeeps _ _ rfl _ hsession)
      rwa [hexecute] at hafter
  | restart defaultMode hsession =>
      obtain ⟨rfl, rfl⟩ := Prod.mk.inj (Option.some.inj ht)
      exact ⟨hrestarts _ rfl _ hsession, by simp⟩
  | finish => cases ht

theorem reading_holds {defaultMode : Bool} {history : List Event} {s : State}
    (hr : ((sessions settings defaultMode).under LeavesReadOnly).Reaches history s) :
    Holds true s := by
  refine hr.invariant (I := fun _ s => Holds true s) ?_ ?_
  · intro s hinit t ht
    rw [show s = _ from hinit] at ht
    cases ht
  · rintro history s event u - hs hstep
    refine hstep.1.holds (.inl rfl) ?_ ?_ hs
    · rintro command succeeds rfl
      exact hstep.2
    · rintro defaultMode rfl
      exact hstep.2

theorem writing_holds {history : List Event} {s : State}
    (hr : ((sessions settings false).under LeavesWriting).Reaches history s) :
    s.defaultMode = false ∧ Holds false s := by
  refine hr.invariant (I := fun _ s => s.defaultMode = false ∧ Holds false s) ?_ ?_
  · intro s hinit
    rw [show s = _ from hinit]
    exact ⟨rfl, fun t ht => by cases ht⟩
  · rintro history s event u - hs hstep
    constructor
    · cases hstep.1 with
      | begin_ => exact hs.1
      | beginNested => exact hs.1
      | command => exact hs.1
      | restart => exact hstep.2
      | finish => exact hstep.2
    · refine hstep.1.holds (.inr hs.1) ?_ ?_ hs.2
      · rintro command succeeds rfl
        exact hstep.2
      · rintro defaultMode rfl t -
        exact hstep.2

/-- Under row-level security every transaction has taken a snapshot. -/
theorem context_queried (henabled : settings.tenantRlsEnabled = true) {defaultMode : Bool}
    {history : List Event} {s : State}
    (hr : ((sessions settings defaultMode).under HasContext).Reaches history s) :
    ∀ readOnly t, s.session = some (readOnly, t) → t.queried = true := by
  refine hr.invariant
    (I := fun _ s => ∀ readOnly t, s.session = some (readOnly, t) → t.queried = true) ?_ ?_
  · intro s hinit readOnly t ht
    rw [show s = _ from hinit] at ht
    cases ht
  · rintro history s event u - hs ⟨hstep, hcontext⟩ readOnly t ht
    cases hstep with
    | begin_ current hidle hhook =>
        obtain ⟨rfl, rfl⟩ := Prod.mk.inj (Option.some.inj ht)
        obtain rfl : _ = Except.ok () := hcontext
        exact hook_queried henabled hhook
    | beginNested current hsession hsavepoint hhook =>
        obtain ⟨rfl, rfl⟩ := Prod.mk.inj (Option.some.inj ht)
        have hnested := OpenTransaction.queried_execute (hs _ _ hsession) .savepoint
        rw [hsavepoint] at hnested
        exact executeAll_invariant (I := fun t => t.queried = true)
          (fun command _ t ht => OpenTransaction.queried_execute ht command) hnested
    | @command _ _ _ _ command hsession hexecute =>
        obtain ⟨rfl, rfl⟩ := Prod.mk.inj (Option.some.inj ht)
        have hafter := OpenTransaction.queried_execute (hs _ _ hsession) command
        rwa [hexecute] at hafter
    | restart => exact hcontext.elim
    | finish => cases ht

/-- So no command of a read session takes the mode away. -/
theorem context_reading (henabled : settings.tenantRlsEnabled = true) {defaultMode : Bool}
    {history : List Event} {s : State}
    (hr : ((sessions settings defaultMode).under HasContext).Reaches history s) :
    ((sessions settings defaultMode).under LeavesReadOnly).Reaches history s := by
  induction hr with
  | init hinit => exact .init hinit
  | @step history s u event hr hstep ih =>
      refine ih.step ⟨hstep.1, ?_⟩
      cases event with
      | command command succeeds =>
          intro t ht
          cases command with
          | setReadOnly => exact .inl rfl
          | setReadWrite => exact fun _ => .inr (.inl (context_queried henabled hr true t ht))
          | query | write | failure | savepoint | release | rollbackTo => exact trivial
      | restart defaultMode => exact hstep.2.elim
      | begin_ | beginNested | finish => exact trivial

/-! ## Writes -/

/-- A write succeeds where its level neither failed nor is read-only. -/
theorem Step.write_succeeds {s u : State} {readOnly succeeds : Bool} {t : OpenTransaction}
    (hstep : Step settings s (.command .write succeeds) u)
    (hsession : s.session = some (readOnly, t)) : succeeds = (!t.failed && !t.mode) := by
  cases hstep with
  | command hsession' hexecute =>
      obtain ⟨rfl, rfl⟩ := Prod.mk.inj (Option.some.inj (hsession.symm.trans hsession'))
      rw [← t.execute_write, hexecute]

/-- What a read session must leave out makes its transaction a writing one. -/
theorem Step.made_writing {s u : State} {event : Event} (hstep : Step settings s event u)
    (hmakes : ¬LeavesReadOnly s event) :
    ∃ t, u.session = some (true, t) ∧ t.mode = false ∧ t.failed = false := by
  cases hstep with
  | begin_ => exact absurd trivial hmakes
  | beginNested => exact absurd trivial hmakes
  | finish => exact absurd trivial hmakes
  | @restart readOnly t defaultMode hsession =>
      simp only [LeavesReadOnly, not_forall, Bool.not_eq_true] at hmakes
      obtain ⟨t', hsession', rfl⟩ := hmakes
      obtain ⟨rfl, rfl⟩ := Prod.mk.inj (Option.some.inj (hsession.symm.trans hsession'))
      exact ⟨{ mode := false }, rfl, rfl, rfl⟩
  | @command readOnly succeeds t after command hsession hexecute =>
      simp only [LeavesReadOnly, not_forall] at hmakes
      obtain ⟨t', hsession', hmakes⟩ := hmakes
      obtain ⟨rfl, rfl⟩ := Prod.mk.inj (Option.some.inj (hsession.symm.trans hsession'))
      refine ⟨after, rfl, ?_⟩
      cases command with
      | setReadWrite =>
          simp only [OpenTransaction.Keeps, true_implies, not_or, Bool.not_eq_true,
            not_not] at hmakes
          obtain ⟨hlive, hqueried, houter⟩ := hmakes
          simp [OpenTransaction.execute, hlive, hqueried, houter] at hexecute
          rw [← hexecute.1]
          exact ⟨rfl, rfl⟩
      | setReadOnly => exact absurd (.inl rfl) hmakes
      | query | write | failure | savepoint | release | rollbackTo => exact absurd trivial hmakes

/-- **The modes of sessions that share a connection.**  A read session never writes as long as it
runs no `SET TRANSACTION READ WRITE` before its first query and ends no transaction by a
statement, whatever its commands and savepoints are and whatever the sessions before it left as
the default; the first of these does let it write.  Under row-level security the first condition
is not needed, since the context of a transaction is installed by queries.  And where no session
makes the reading mode the default, no read session keeps a write session from writing. -/
theorem transaction_modes (settings : StorageSettings) (defaultMode : Bool) :
    (∀ history s, ((sessions settings defaultMode).under LeavesReadOnly).Reaches history s →
      ∀ t succeeds u, s.session = some (true, t) →
        Step settings s (.command .write succeeds) u → succeeds = false) ∧
    (∀ history s event u,
      ((sessions settings defaultMode).under LeavesReadOnly).Reaches history s →
        Step settings s event u → ¬LeavesReadOnly s event →
          ∀ succeeds v, Step settings u (.command .write succeeds) v → succeeds = true) ∧
    (settings.tenantRlsEnabled = true →
      ∀ history s, ((sessions settings defaultMode).under HasContext).Reaches history s →
        ∀ t succeeds u, s.session = some (true, t) →
          Step settings s (.command .write succeeds) u → succeeds = false) ∧
    (∀ history s, ((sessions settings false).under LeavesWriting).Reaches history s →
      ∀ t succeeds u, s.session = some (false, t) →
        Step settings s (.command .write succeeds) u → succeeds = !t.failed) := by
  have hreading : ∀ history s,
      ((sessions settings defaultMode).under LeavesReadOnly).Reaches history s →
        ∀ t succeeds u, s.session = some (true, t) →
          Step settings s (.command .write succeeds) u → succeeds = false := by
    intro history s hr t succeeds u hsession hwrite
    rw [hwrite.write_succeeds hsession, (reading_holds hr t hsession).1, Bool.not_true,
      Bool.and_false]
  refine ⟨hreading, ?_, ?_, ?_⟩
  · intro history s event u hr hstep hmakes succeeds v hwrite
    obtain ⟨t, hsession, hmode, hlive⟩ := hstep.made_writing hmakes
    rw [hwrite.write_succeeds hsession, hmode, hlive]
    rfl
  · intro henabled history s hr
    exact hreading history s (context_reading henabled hr)
  · intro history s hr t succeeds u hsession hwrite
    rw [hwrite.write_succeeds hsession, ((writing_holds hr).2 t hsession).1, Bool.not_false,
      Bool.and_true]

-- Without row-level security, a read session on the engine for writing can make itself a writer.
example : ((executeAll { mode := false } [.setReadOnly, .setReadWrite]).execute .write).2 = true :=
  rfl

example : ((executeAll { mode := false }
    [.setReadOnly, .query, .savepoint, .setReadWrite, .rollbackTo 0]).execute .write).2 = false :=
  rfl

end ProdkitStorage.Database.ReadOnly
