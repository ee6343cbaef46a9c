import ProdkitStorage.Database.TenantIsolation

/-!
# Savepoints of a session

`database/tenant.py` under nested transactions.  SQLAlchemy connects lazily: `begin`
and `begin_nested` open a *level* of the session, and the level begins on the
connection, with its `after_begin` event, when the next statement needs it, the
outermost level first.  `set_config(..., true)` is undone by `ROLLBACK TO`, outlives
`RELEASE`, and ends with the outermost transaction.

A level records the context of its `after_begin` event and what a rollback of it
restores.  `Consistent` says that the connection, and every state a rollback can bring
back, shows the tenant of the level it belongs to.
-/

namespace ProdkitStorage.Database.Savepoints

open ProdkitStorage.Foundation
open ProdkitStorage.Python

/-! ## The steps of a session -/

/-- A transaction or savepoint that has begun on the connection. -/
structure Level where
  /-- The request context that was current at its `after_begin` event. -/
  context : RequestContext
  /-- The connection as `ROLLBACK` brings it back. -/
  saved : Connection

/-- A session with one connection. -/
structure State where
  /-- The contexts that were entered and not left, the current one first. -/
  contexts : List RequestContext
  /-- The number of levels that have not begun on the connection yet. -/
  pending : Nat
  /-- The levels that have, the innermost first. -/
  begun : List Level
  connection : Connection

/-- `get_request_context()`. -/
def State.current (s : State) : RequestContext := getRequestContext s.contexts.head?

/-- The connection when a level begins on it: the outermost one opens the transaction. -/
def State.opened (s : State) : Connection :=
  match s.begun with
  | [] => { s.connection with transaction := some false }
  | _ :: _ => s.connection

/-- What a session does. -/
inductive Event where
  /-- `request_context` or `tenant_context` is entered. -/
  | enter (context : RequestContext)
  | exit
  | begin_
  | beginNested
  /-- A level begins on the connection, and the hook runs. -/
  | connect (outcome : Except PyError Unit)
  /-- A statement is executed with this tenant setting. -/
  | statement (shown : Option String)
  | release
  | rollback
  /-- A savepoint ends that never began on the connection. -/
  | forget
  /-- The outermost transaction ends, and all levels with it. -/
  | finish

/-- One step.  A level whose hook raised has begun all the same, and a caller that goes on runs its
statements in it. -/
inductive Step (settings : StorageSettings) (readOnly : Bool) : State → Event → State → Prop where
  | enter (s : State) (context : RequestContext) :
      Step settings readOnly s (.enter context) { s with contexts := context :: s.contexts }
  | exit {s : State} {context : RequestContext} {outer : List RequestContext} :
      s.contexts = context :: outer → Step settings readOnly s .exit { s with contexts := outer }
  | begin_ {s : State} : s.pending = 0 → s.begun = [] →
      Step settings readOnly s .begin_ { s with pending := 1 }
  /-- Without a transaction `begin_nested` begins one first. -/
  | beginNested (s : State) :
      Step settings readOnly s .beginNested
        { s with pending := if s.pending = 0 ∧ s.begun.isEmpty then 2 else s.pending + 1 }
  | connect {s : State} {pending : Nat} {connection : Connection} {outcome : Except PyError Unit} :
      s.pending = pending + 1 →
      applyContextAfterBegin (some settings) readOnly s.current s.opened = (connection, outcome) →
      Step settings readOnly s (.connect outcome)
        { s with pending, connection, begun := ⟨s.current, s.connection⟩ :: s.begun }
  | statement {s : State} : s.pending = 0 → s.begun ≠ [] →
      Step settings readOnly s
        (.statement (currentSetting s.connection.settings settings.rlsTenantSetting)) s
  | release {s : State} {level enclosing : Level} {outer : List Level} :
      s.pending = 0 → s.begun = level :: enclosing :: outer →
      Step settings readOnly s .release { s with begun := enclosing :: outer }
  | rollback {s : State} {level enclosing : Level} {outer : List Level} :
      s.pending = 0 → s.begun = level :: enclosing :: outer →
      Step settings readOnly s .rollback
        { s with begun := enclosing :: outer, connection := level.saved }
  | forget {s : State} {pending : Nat} :
      s.pending = pending + 1 → 0 < pending ∨ s.begun ≠ [] →
      Step settings readOnly s .forget { s with pending }
  | finish (s : State) (after : SessionSettings) :
      (∀ folded, after folded = none ∨ after folded = some "") →
      Step settings readOnly s .finish
        { s with pending := 0, begun := [], connection := ⟨after, none⟩ }

/-- A session on a connection of the pool. -/
def session (settings : StorageSettings) (readOnly : Bool) : System State Event where
  init s := s.pending = 0 ∧ s.begun = [] ∧
    ∀ folded, s.connection.settings folded = none ∨ s.connection.settings folded = some ""
  step := Step settings readOnly

/-! ## The tenant a statement runs as -/

/-- The text of the context's tenant; no tenant reads like the empty text. -/
def tenantText (context : RequestContext) : String := contextText Uuid.str context.tenantId

/-- The text of the tenant setting; NULL reads like the empty text. -/
def shownText (settings : StorageSettings) (connection : Connection) : String :=
  (currentSetting connection.settings settings.rlsTenantSetting).getD ""

/-- The tenant setting is that of the context under which the innermost level began. -/
def RunsAs (s : State) (shown : String) : Prop :=
  ∃ level outer, s.begun = level :: outer ∧ shown = tenantText level.context

/-- What the hook installs under the name of the tenant setting is the tenant: the last of the
settings that the server reads under this name has its text. -/
def Installs (settings : StorageSettings) (context : RequestContext) : Prop :=
  if foldName settings.rlsRequestSetting = foldName settings.rlsTenantSetting then
    contextText id context.requestId = tenantText context
  else foldName settings.rlsActorSetting = foldName settings.rlsTenantSetting →
    contextText Uuid.str context.actorId = tenantText context

/-- The hook raises. -/
def Raises (settings : StorageSettings) (context : RequestContext) : Prop :=
  settings.tenantRequired = true ∧ context.tenantId = none

/-- A step that does not leak a tenant: a savepoint is released under the tenant its enclosing level
began under, and a level begins with a hook that installs its tenant, or raises where there is no
tenant either. -/
def Careful (settings : StorageSettings) (s : State) : Event → Prop
  | .connect _ =>
      (Raises settings s.current ∧ ∀ level ∈ s.begun.head?, level.context.tenantId = none) ∨
        (¬Raises settings s.current ∧ Installs settings s.current)
  | .release => ∀ level enclosing outer, s.begun = level :: enclosing :: outer →
      level.context.tenantId = enclosing.context.tenantId
  | _ => True

/-- The connection shows the tenant of its innermost level, and so does what each rollback
restores. -/
def Consistent (settings : StorageSettings) : Connection → List Level → Prop
  | connection, [] => shownText settings connection = ""
  | connection, level :: outer =>
      shownText settings connection = tenantText level.context ∧
        Consistent settings level.saved outer

/-! ## The hook -/

variable {settings : StorageSettings} {readOnly : Bool}

/-- The text of a context tells its tenant. -/
theorem tenantText_inj {context context' : RequestContext} :
    tenantText context = tenantText context' ↔ context.tenantId = context'.tenantId := by
  constructor
  · intro h
    unfold tenantText at h
    cases htenant : context.tenantId with
    | none =>
        cases htenant' : context'.tenantId with
        | none => rfl
        | some value =>
            rw [htenant, htenant'] at h
            exact absurd h.symm (Uuid.str_ne_empty value)
    | some value =>
        cases htenant' : context'.tenantId with
        | none =>
            rw [htenant, htenant'] at h
            exact absurd h (Uuid.str_ne_empty value)
        | some value' =>
            rw [htenant, htenant'] at h
            have hread := (congrArg Uuid.ofStr h).symm.trans (Uuid.ofStr_str value)
            rw [contextText, Uuid.ofStr_str] at hread
            rw [Except.ok.inj hread]
  · intro h
    rw [tenantText, tenantText, h]

theorem tenantText_eq_empty {context : RequestContext} :
    tenantText context = "" ↔ context.tenantId = none :=
  @tenantText_inj context {}

/-- The outermost level finds the settings of the connection, and so do the others. -/
theorem State.shownText_opened (s : State) :
    shownText settings s.opened = shownText settings s.connection := by
  unfold opened
  split
  · rfl
  · rfl

/-- A hook that raises leaves the settings. -/
theorem hook_raised (henabled : settings.tenantRlsEnabled = true) {context : RequestContext}
    (hraises : Raises settings context) {before connection : Connection}
    {outcome : Except PyError Unit}
    (h : applyContextAfterBegin (some settings) readOnly context before = (connection, outcome)) :
    shownText settings connection = shownText settings before := by
  simp only [applyContextAfterBegin, henabled, hraises.1, hraises.2, Option.isNone_none,
    Bool.and_self, Bool.not_true, Bool.false_eq_true, if_true, if_false] at h
  obtain ⟨rfl, -⟩ := Prod.mk.inj h
  cases readOnly with
  | true => rfl
  | false => rfl

/-- A hook that does not raise makes the tenant setting show the tenant exactly when it installs
nothing else under that name. -/
theorem hook_shows_iff (henabled : settings.tenantRlsEnabled = true) {context : RequestContext}
    (hraises : ¬Raises settings context) {before connection : Connection}
    {outcome : Except PyError Unit}
    (h : applyContextAfterBegin (some settings) readOnly context before = (connection, outcome)) :
    shownText settings connection = tenantText context ↔ Installs settings context := by
  have hgoesOn : (settings.tenantRequired && context.tenantId.isNone) = false := by
    by_contra hstops
    simp only [Bool.not_eq_false, Bool.and_eq_true, Option.isNone_iff_eq_none] at hstops
    exact hraises hstops
  simp only [applyContextAfterBegin, henabled, hgoesOn, Bool.not_true, Bool.false_eq_true,
    if_false] at h
  obtain ⟨rfl, -⟩ := Prod.mk.inj h
  simp only [shownText, currentSetting, setConfig, contextValues, List.foldl_cons, List.foldl_nil]
  unfold Installs
  by_cases hrequest : foldName settings.rlsRequestSetting = foldName settings.rlsTenantSetting
  · simp [hrequest]
  · rw [if_neg hrequest, if_neg (Ne.symm hrequest)]
    by_cases hactor : foldName settings.rlsActorSetting = foldName settings.rlsTenantSetting
    · simp [hactor]
    · rw [if_neg (Ne.symm hactor)]
      simp [hactor, tenantText]

/-! ## Runs -/

/-- After a level began, the connection shows its tenant exactly when the step was careful. -/
theorem connect_shows_iff (henabled : settings.tenantRlsEnabled = true) {s : State}
    (hs : Consistent settings s.connection s.begun) {connection : Connection}
    {outcome : Except PyError Unit}
    (h : applyContextAfterBegin (some settings) readOnly s.current s.opened =
      (connection, outcome)) :
    shownText settings connection = tenantText s.current ↔
      Careful settings s (.connect outcome) := by
  by_cases hraises : Raises settings s.current
  · rw [hook_raised henabled hraises h, s.shownText_opened, tenantText_eq_empty.mpr hraises.2]
    have hshown : shownText settings s.connection = "" ↔
        ∀ level ∈ s.begun.head?, level.context.tenantId = none := by
      cases hbegun : s.begun with
      | nil =>
          rw [hbegun] at hs
          exact ⟨fun _ => nofun, fun _ => hs⟩
      | cons level outer =>
          rw [hbegun] at hs
          rw [hs.1, tenantText_eq_empty]
          simp
    simp [hshown, Careful, hraises]
  · rw [hook_shows_iff henabled hraises h]
    simp [Careful, hraises]

theorem Step.consistent (henabled : settings.tenantRlsEnabled = true) {s t : State} {event : Event}
    (hstep : Step settings readOnly s event t) (hcareful : Careful settings s event)
    (hs : Consistent settings s.connection s.begun) :
    Consistent settings t.connection t.begun := by
  cases hstep with
  | enter context => exact hs
  | exit hcontexts => exact hs
  | begin_ hpending hbegun => exact hs
  | beginNested => exact hs
  | connect hpending hhook => exact ⟨(connect_shows_iff henabled hs hhook).mpr hcareful, hs⟩
  | statement hpending hbegun => exact hs
  | @release level enclosing outer hpending hbegun =>
      rw [hbegun] at hs
      obtain ⟨hshown, -, houter⟩ := hs
      exact ⟨hshown.trans (tenantText_inj.mpr (hcareful level enclosing outer hbegun)), houter⟩
  | @rollback level enclosing outer hpending hbegun =>
      rw [hbegun] at hs
      exact hs.2
  | forget hpending hlevels => exact hs
  | finish after hreset =>
      rcases hreset (foldName settings.rlsTenantSetting) with hnull | hempty
      · simp only [Consistent, shownText, currentSetting, hnull, Option.getD_none]
      · simp only [Consistent, shownText, currentSetting, hempty, Option.getD_some]

theorem session_consistent (henabled : settings.tenantRlsEnabled = true) {history : List Event}
    {s : State} (hr : ((session settings readOnly).under (Careful settings)).Reaches history s) :
    Consistent settings s.connection s.begun := by
  refine hr.invariant (I := fun _ s => Consistent settings s.connection s.begun) ?_ ?_
  · rintro s ⟨-, hbegun, hfresh⟩
    rw [hbegun]
    rcases hfresh (foldName settings.rlsTenantSetting) with hnull | hempty
    · simp only [Consistent, shownText, currentSetting, hnull, Option.getD_none]
    · simp only [Consistent, shownText, currentSetting, hempty, Option.getD_some]
  · rintro history s event t - hs ⟨hstep, hcareful⟩
    exact hstep.consistent henabled hcareful hs

/-- In the runs whose steps are careful every statement runs as the tenant under which its innermost
level began, and the first step that is not careful leaves a level whose statements would not. -/
theorem savepoints_keep_tenant (henabled : settings.tenantRlsEnabled = true) :
    (∀ history s, ((session settings readOnly).under (Careful settings)).Reaches history s →
      ∀ shown t, Step settings readOnly s (.statement shown) t → RunsAs s (shown.getD "")) ∧
    ∀ history s event t, ((session settings readOnly).under (Careful settings)).Reaches history s →
      Step settings readOnly s event t → ¬Careful settings s event →
        ¬RunsAs t (shownText settings t.connection) := by
  constructor
  · intro history s hr shown t hstep
    have hs := session_consistent henabled hr
    cases hstep with
    | statement hpending hlevels =>
        obtain ⟨level, outer, hbegun⟩ := List.exists_cons_of_ne_nil hlevels
        rw [hbegun] at hs
        exact ⟨level, outer, hbegun, hs.1⟩
  · rintro history s event t hr hstep hcareless ⟨level, outer, hbegun, hruns⟩
    have hs := session_consistent henabled hr
    cases hstep with
    | connect hpending hhook =>
        obtain ⟨rfl, rfl⟩ := List.cons.inj hbegun
        exact hcareless ((connect_shows_iff henabled hs hhook).mp hruns)
    | @release released enclosing outer' hpending hlevels =>
        refine hcareless fun level' enclosing' outer'' hlevels' => ?_
        rw [hlevels] at hs hlevels'
        obtain ⟨rfl, htail⟩ := List.cons.inj hlevels'
        obtain ⟨rfl, rfl⟩ := List.cons.inj htail
        obtain ⟨rfl, rfl⟩ := List.cons.inj hbegun
        exact tenantText_inj.mp (hs.1.symm.trans hruns)
    | enter context => exact hcareless trivial
    | exit hcontexts => exact hcareless trivial
    | begin_ hpending hlevels => exact hcareless trivial
    | beginNested => exact hcareless trivial
    | statement hpending hlevels => exact hcareless trivial
    | rollback hpending hlevels => exact hcareless trivial
    | forget hpending hlevels => exact hcareless trivial
    | finish after hreset => exact hcareless trivial

/-! ## A savepoint under another tenant -/

/-- The default settings, with row-level security. -/
def rlsSettings : StorageSettings := { defaultSettings with tenantRlsEnabled := true }

/-- A caller of a tenant. -/
def caller (tenant : Uuid) : RequestContext := { tenantId := some tenant }

/-- A connection after the hook ran for a tenant. -/
def hooked (tenant : Uuid) (connection : Connection) : Connection :=
  (applyContextAfterBegin (some rlsSettings) false (caller tenant) connection).1

/-- The transaction of tenant 1 has begun. -/
def outerBegun : State :=
  ⟨[caller 1], 0, [⟨caller 1, ⟨fun _ => none, none⟩⟩], hooked 1 ⟨fun _ => none, some false⟩⟩

/-- A savepoint of tenant 2 has begun inside it. -/
def innerBegun : State :=
  ⟨[caller 2, caller 1], 0, ⟨caller 2, outerBegun.connection⟩ :: outerBegun.begun,
    hooked 2 outerBegun.connection⟩

/-- The savepoint is released: the tenant setting is that of tenant 2. -/
def innerReleased : State := { innerBegun with begun := outerBegun.begun }

/-- The savepoint is rolled back. -/
def innerRolledBack : State :=
  { innerBegun with begun := outerBegun.begun, connection := outerBegun.connection }

theorem step_innerRolledBack :
    Step rlsSettings false innerBegun .rollback innerRolledBack :=
  @Step.rollback rlsSettings false innerBegun ⟨caller 2, outerBegun.connection⟩
    ⟨caller 1, ⟨fun _ => none, none⟩⟩ [] rfl rfl

/-- The labels of the steps that lead to the savepoint, newest first. -/
def toInner : List Event :=
  [.connect (.ok ()), .beginNested, .enter (caller 2), .connect (.ok ()), .begin_,
    .enter (caller 1)]

theorem caller_raises (tenant : Uuid) : ¬Raises rlsSettings (caller tenant) := nofun

theorem caller_installs (tenant : Uuid) : Installs rlsSettings (caller tenant) := by
  have hrequest :
      foldName rlsSettings.rlsRequestSetting ≠ foldName rlsSettings.rlsTenantSetting := by
    decide
  have hactor : foldName rlsSettings.rlsActorSetting ≠ foldName rlsSettings.rlsTenantSetting := by
    decide
  rw [Installs, if_neg hrequest]
  exact fun h => absurd h hactor

theorem reaches_innerBegun :
    ((session rlsSettings false).under (Careful rlsSettings)).Reaches toInner innerBegun := by
  have hstart : ((session rlsSettings false).under (Careful rlsSettings)).Reaches []
      ⟨[], 0, [], ⟨fun _ => none, none⟩⟩ := .init ⟨rfl, rfl, fun _ => .inl rfl⟩
  have houter := (hstart.step ⟨.enter _ (caller 1), trivial⟩).step ⟨.begin_ rfl rfl, trivial⟩
  have houter := houter.step
    ⟨@Step.connect _ _ _ 0 _ (.ok ()) rfl rfl, .inr ⟨caller_raises 1, caller_installs 1⟩⟩
  have hinner := (houter.step ⟨.enter _ (caller 2), trivial⟩).step ⟨.beginNested _, trivial⟩
  exact hinner.step ⟨.connect rfl rfl, .inr ⟨caller_raises 2, caller_installs 2⟩⟩

/-- After the savepoint of tenant 2 is released, a statement of the transaction of tenant 1 runs as
tenant 2. -/
theorem released_savepoint_leaks :
    ¬∀ history s, (session rlsSettings false).Reaches history s →
      ∀ shown t, Step rlsSettings false s (.statement shown) t → RunsAs s (shown.getD "") := by
  intro hruns
  have hreleased : (session rlsSettings false).Reaches (.release :: toInner) innerReleased :=
    reaches_innerBegun.of_under.step (.release rfl rfl)
  obtain ⟨level, outer, hbegun, hshown⟩ :=
    hruns _ _ hreleased _ _ (.statement rfl (List.cons_ne_nil _ _))
  obtain ⟨rfl, -⟩ := List.cons.inj hbegun
  exact absurd hshown (by decide)

/-- After it is rolled back, the statement runs as tenant 1. -/
theorem savepoints_keep_tenant_rolled_back :
    RunsAs innerRolledBack
      ((currentSetting innerRolledBack.connection.settings "app.tenant_id").getD "") := by
  have hrolledBack := reaches_innerBegun.step ⟨step_innerRolledBack, trivial⟩
  exact (savepoints_keep_tenant rfl).1 _ _ hrolledBack _ _
    (.statement rfl (List.cons_ne_nil _ _))

end ProdkitStorage.Database.Savepoints
