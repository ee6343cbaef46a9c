import Mathlib.Algebra.Order.Ring.Rat
import Mathlib.Logic.Function.Basic
import ProdkitStorage.Context

/-!
# The query observer

`install_query_observer` of `database/observability.py`: which listeners an engine gets when several
threads install the observer, and what its three listeners record.  They keep the times at which
executions began on a stack of the connection, and an execution that ends takes the newest.  The
listeners are registered one after another, and other threads may execute in between.

The executions of a connection may be nested, and those of other connections may come in between.
`Session` says from outside, by matching brackets, which executions there were.
-/

namespace ProdkitStorage.Database.Observability

/-- The settings that the listeners read, and `telemetry.enabled`. -/
structure Settings where
  enabled : Bool
  slowQueryThresholdMs : ℚ
  logQueryParameters : Bool

/-- What `record_query` gives to the meter. -/
structure QueryRecord where
  durationMs : ℚ
  component : String
  failed : Bool

/-- The `extra` of a "slow database query". -/
structure SlowQuery (P : Type) where
  durationMs : ℚ
  request : RequestContext
  component : String
  statement : String
  parameters : Option P

/-- What an engine tells its listeners, in the order in which the observer listens. -/
inductive Hook where
  | beforeCursorExecute
  | afterCursorExecute
  | handleError
deriving DecidableEq, Repr

/-- The hook that the observer registers next. -/
def Hook.next : Hook → Option Hook
  | .beforeCursorExecute => some .afterCursorExecute
  | .afterCursorExecute => some .handleError
  | .handleError => none

/-- A thread that comes to the first hook next has yet to register the second. -/
def Hook.awaits : Hook → Hook → Bool
  | .beforeCursorExecute, _ => true
  | .afterCursorExecute, hook => hook != .beforeCursorExecute
  | .handleError, hook => hook == .handleError

/-- Registering a hook, a thread goes on to await the later ones only. -/
theorem Hook.awaits_next (hook other : Hook) :
    (hook.next.toList.countP fun next => next.awaits other) + (if hook = other then 1 else 0) =
      if hook.awaits other then 1 else 0 := by
  cases hook <;> cases other <;> rfl

variable {Engine Conn P : Type}

/-! ## The observer -/

/-- The observed engines, the listeners of each, the stacks of the connections with the newest
first, and what was recorded, with the connection it was recorded for. -/
structure State (Engine Conn P : Type) where
  observed : List Engine
  /-- Threads that have left the lock, and the hook that each comes to next. -/
  installing : List (Engine × String × Hook)
  listeners : Engine → Hook → List String
  queryStarted : Conn → List ℚ
  meter : List (Conn × QueryRecord)
  log : List (Conn × SlowQuery P)

def State.initial : State Engine Conn P where
  observed := []
  installing := []
  listeners _ _ := []
  queryStarted _ := []
  meter := []
  log := []

inductive Event (Engine Conn P : Type) where
  /-- A thread runs the locked part of `install_query_observer`. -/
  | claim (engine : Engine) (component : String)
  /-- It registers the listener of a hook. -/
  | listen (engine : Engine) (component : String) (hook : Hook)
  | beforeCursorExecute (conn : Conn) (now : ℚ)
  | afterCursorExecute (conn : Conn) (now : ℚ) (statement : String) (parameters : P)
      (current : Option RequestContext)
  | handleError (connection : Option Conn) (now : ℚ)

namespace State

variable [DecidableEq Conn]

def beforeCursorExecute (s : State Engine Conn P) (conn : Conn) (now : ℚ) : State Engine Conn P :=
  { s with queryStarted := Function.update s.queryStarted conn (now :: s.queryStarted conn) }

/-- `_pop_query_observation`. -/
def popQueryObservation (s : State Engine Conn P) (conn : Conn) :
    Option ℚ × State Engine Conn P :=
  match s.queryStarted conn with
  | [] => (none, s)
  | started :: rest =>
      (some started, { s with queryStarted := Function.update s.queryStarted conn rest })

/-- `record_query`. -/
def recordQuery (s : State Engine Conn P) (settings : Settings) (conn : Conn)
    (record : QueryRecord) : State Engine Conn P :=
  if settings.enabled then { s with meter := s.meter ++ [(conn, record)] } else s

def afterCursorExecute (s : State Engine Conn P) (settings : Settings) (component : String)
    (conn : Conn) (now : ℚ) (statement : String) (parameters : P)
    (current : Option RequestContext) : State Engine Conn P :=
  match s.popQueryObservation conn with
  | (none, s) => s
  | (some started, s) =>
      let elapsedMs := (now - started) * 1000
      let s := s.recordQuery settings conn ⟨elapsedMs, component, false⟩
      if elapsedMs < settings.slowQueryThresholdMs then s
      else { s with log := s.log ++ [(conn, {
        durationMs := elapsedMs
        request := getRequestContext current
        component := component
        statement := String.ofList (statement.toList.take 4000)
        parameters := if settings.logQueryParameters then some parameters else none })] }

def handleError (s : State Engine Conn P) (settings : Settings) (component : String)
    (connection : Option Conn) (now : ℚ) : State Engine Conn P :=
  match connection with
  | none => s
  | some conn =>
      match s.popQueryObservation conn with
      | (none, s) => s
      | (some started, s) => s.recordQuery settings conn ⟨(now - started) * 1000, component, true⟩

variable [DecidableEq Engine] (settings : Settings) (engineOf : Conn → Engine)

/-- A thread registers the listener of a hook, and goes on to the next. -/
def register (s : State Engine Conn P) (engine : Engine) (component : String) (hook : Hook) :
    State Engine Conn P :=
  { s with installing := (hook.next.toList.map fun next => (engine, component, next)) ++
             s.installing.erase (engine, component, hook)
           listeners := Function.update s.listeners engine (Function.update (s.listeners engine)
             hook (s.listeners engine hook ++ [component])) }

/-- What happens: an installation, or an event that goes to the listeners of the engine. -/
def step (s : State Engine Conn P) : Event Engine Conn P → State Engine Conn P
  | .claim engine component =>
      if engine ∈ s.observed then s
      else { s with observed := engine :: s.observed
                    installing := (engine, component, .beforeCursorExecute) :: s.installing }
  | .listen engine component hook =>
      if (engine, component, hook) ∈ s.installing then s.register engine component hook else s
  | .beforeCursorExecute conn now =>
      (s.listeners (engineOf conn) .beforeCursorExecute).foldl
        (fun s _ => s.beforeCursorExecute conn now) s
  | .afterCursorExecute conn now statement parameters current =>
      (s.listeners (engineOf conn) .afterCursorExecute).foldl
        (fun s component => s.afterCursorExecute settings component conn now statement parameters
          current) s
  | .handleError none _ => s
  | .handleError (some conn) now =>
      (s.listeners (engineOf conn) .handleError).foldl
        (fun s component => s.handleError settings component (some conn) now) s

def run (s : State Engine Conn P) (events : List (Event Engine Conn P)) : State Engine Conn P :=
  events.foldl (step settings engineOf) s

end State

/-! ## The executions, from outside -/

/-- An execution that ended: what it executed, unless it failed. -/
structure Execution (P : Type) where
  start : ℚ
  finish : ℚ
  executed : Option (String × P × Option RequestContext)

namespace Execution

def durationMs (execution : Execution P) : ℚ := (execution.finish - execution.start) * 1000

def record (component : String) (execution : Execution P) : QueryRecord :=
  ⟨execution.durationMs, component, execution.executed.isNone⟩

/-- An execution that was slow and did not fail. -/
def slow (settings : Settings) (component : String) (execution : Execution P) :
    Option (SlowQuery P) :=
  match execution.executed with
  | none => none
  | some (statement, parameters, current) =>
      if execution.durationMs < settings.slowQueryThresholdMs then none
      else some {
        durationMs := execution.durationMs
        request := getRequestContext current
        component := component
        statement := String.ofList (statement.toList.take 4000)
        parameters := if settings.logQueryParameters then some parameters else none }

end Execution

/-- An event ends an execution that began then. -/
inductive Ends (conn : Conn) (start : ℚ) : Event Engine Conn P → Execution P → Prop where
  | returned (now : ℚ) (statement : String) (parameters : P) (current : Option RequestContext) :
      Ends conn start (.afterCursorExecute conn now statement parameters current)
        ⟨start, now, some (statement, parameters, current)⟩
  | raised (now : ℚ) : Ends conn start (.handleError (some conn) now) ⟨start, now, none⟩

/-- The events of a connection, the executions that ended in them, in the order of their ends, and
the beginnings of those that are still open, the innermost first. -/
inductive Nested (conn : Conn) :
    List (Event Engine Conn P) → List (Execution P) → List ℚ → Prop where
  | nil : Nested conn [] [] []
  | execution {start : ℚ} {finish : Event Engine Conn P} {execution : Execution P}
      {inner rest : List (Event Engine Conn P)} {within after : List (Execution P)}
      {opened : List ℚ} :
      Nested conn inner within [] → Ends conn start finish execution →
      Nested conn rest after opened →
      Nested conn (.beforeCursorExecute conn start :: (inner ++ finish :: rest))
        (within ++ execution :: after) opened
  | opened {start : ℚ} {rest : List (Event Engine Conn P)} {ended : List (Execution P)}
      {opened : List ℚ} :
      Nested conn rest ended opened →
      Nested conn (.beforeCursorExecute conn start :: rest) ended (opened ++ [start])

/-- The events of a connection from the time when it is observed: there may also be ends of
executions that began before, and errors outside any execution. -/
inductive Session (conn : Conn) :
    List (Event Engine Conn P) → List (Execution P) → List ℚ → Prop where
  | nested {events : List (Event Engine Conn P)} {ended : List (Execution P)} {opened : List ℚ} :
      Nested conn events ended opened → Session conn events ended opened
  | early {start : ℚ} {finish : Event Engine Conn P} {execution : Execution P}
      {rest : List (Event Engine Conn P)} {ended : List (Execution P)} {opened : List ℚ} :
      Ends conn start finish execution → Session conn rest ended opened →
      Session conn (finish :: rest) ended opened
  | execution {first rest : List (Event Engine Conn P)} {before after : List (Execution P)}
      {opened : List ℚ} :
      Nested conn first before [] → Session conn rest after opened →
      Session conn (first ++ rest) (before ++ after) opened

/-- The event is about the connection. -/
def Event.concerns [DecidableEq Conn] (conn : Conn) : Event Engine Conn P → Bool
  | .claim _ _ => false
  | .listen _ _ _ => false
  | .beforeCursorExecute other _ => other == conn
  | .afterCursorExecute other _ _ _ _ => other == conn
  | .handleError other _ => other == some conn

/-! ## One connection -/

/-- What there is of a connection. -/
structure View (P : Type) where
  started : List ℚ
  records : List QueryRecord
  slow : List (SlowQuery P)

namespace View

variable (settings : Settings) (component : String)

/-- An execution ends. -/
def ended (view : View P) (rest : List ℚ) (execution : Execution P) : View P where
  started := rest
  records := view.records ++ if settings.enabled then [execution.record component] else []
  slow := view.slow ++ (execution.slow settings component).toList

/-- What one listener does with an event. -/
def step (view : View P) : Event Engine Conn P → View P
  | .beforeCursorExecute _ now => { view with started := now :: view.started }
  | .afterCursorExecute _ now statement parameters current =>
      match view.started with
      | [] => view
      | start :: rest =>
          view.ended settings component rest ⟨start, now, some (statement, parameters, current)⟩
  | .handleError _ now =>
      match view.started with
      | [] => view
      | start :: rest => view.ended settings component rest ⟨start, now, none⟩
  | _ => view

variable {settings component} {conn : Conn}

/-- The end of an execution takes the newest beginning. -/
theorem step_ends {view : View P} {start : ℚ} {rest : List ℚ} {finish : Event Engine Conn P}
    {execution : Execution P} (hview : view.started = start :: rest)
    (h : Ends conn start finish execution) :
    view.step settings component finish = view.ended settings component rest execution := by
  cases h <;> simp only [step, hview]

/-- An end without a beginning records nothing. -/
theorem step_early {view : View P} {start : ℚ} {finish : Event Engine Conn P}
    {execution : Execution P} (hview : view.started = []) (h : Ends conn start finish execution) :
    view.step settings component finish = view := by
  cases h <;> simp only [step, hview]

/-- What is recorded of executions. -/
def recorded (settings : Settings) (component : String) (executions : List (Execution P)) :
    List QueryRecord :=
  if settings.enabled then executions.map (Execution.record component) else []

theorem recorded_append (first second : List (Execution P)) :
    recorded settings component (first ++ second) =
      recorded settings component first ++ recorded settings component second := by
  cases henabled : settings.enabled <;> simp [recorded, henabled]

/-- **Nested executions** are recorded when they end, each with its own beginning. -/
theorem foldl_nested {events : List (Event Engine Conn P)} {ended : List (Execution P)}
    {opened : List ℚ} (h : Nested conn events ended opened) (view : View P) :
    events.foldl (step settings component) view =
      ⟨opened ++ view.started, view.records ++ recorded settings component ended,
        view.slow ++ ended.filterMap (Execution.slow settings component)⟩ := by
  induction h generalizing view with
  | nil => simp [recorded]
  | @execution start finish execution inner rest within after opened _ hends _ ihinner ihrest =>
      rw [List.foldl_cons, List.foldl_append, ihinner, List.foldl_cons, step_ends rfl hends, ihrest]
      cases henabled : settings.enabled <;>
        cases hslow : execution.slow settings component <;>
          simp [View.ended, recorded, henabled, hslow, List.append_assoc, step,
            List.filterMap_append]
  | opened _ ih =>
      rw [List.foldl_cons, ih]
      simp [step, List.append_assoc]

/-- A connection from the time when it is observed. -/
theorem foldl_session {events : List (Event Engine Conn P)} {ended : List (Execution P)}
    {opened : List ℚ} (h : Session conn events ended opened) {view : View P}
    (hview : view.started = []) :
    events.foldl (step settings component) view =
      ⟨opened, view.records ++ recorded settings component ended,
        view.slow ++ ended.filterMap (Execution.slow settings component)⟩ := by
  induction h generalizing view with
  | nested hnested => rw [foldl_nested hnested, hview, List.append_nil]
  | early hends _ ih => rw [List.foldl_cons, step_early hview hends, ih hview]
  | execution hfirst _ ih =>
      rw [List.foldl_append, foldl_nested hfirst, ih (by simp [hview])]
      simp [recorded_append, List.append_assoc]

end View

/-- What there is of a connection in a state. -/
def State.view [DecidableEq Conn] (s : State Engine Conn P) (conn : Conn) : View P where
  started := s.queryStarted conn
  records := (s.meter.filter fun item => item.1 == conn).map Prod.snd
  slow := (s.log.filter fun item => item.1 == conn).map Prod.snd

namespace State

variable [DecidableEq Conn] {settings : Settings} {component : String} {s : State Engine Conn P}
  {conn other : Conn} {now : ℚ}

theorem view_beforeCursorExecute :
    (s.beforeCursorExecute conn now).view conn =
      { s.view conn with started := now :: (s.view conn).started } := by
  simp [view, beforeCursorExecute]

theorem view_beforeCursorExecute_ne (hne : other ≠ conn) :
    (s.beforeCursorExecute other now).view conn = s.view conn := by
  simp [view, beforeCursorExecute, hne.symm]

theorem view_afterCursorExecute {statement : String} {parameters : P}
    {current : Option RequestContext} :
    (s.afterCursorExecute settings component conn now statement parameters current).view conn =
      (s.view conn).step settings component
        (.afterCursorExecute conn now statement parameters current : Event Engine Conn P) := by
  cases hstarted : s.queryStarted conn with
  | nil => simp [afterCursorExecute, popQueryObservation, hstarted, View.step, view]
  | cons start rest =>
      cases henabled : settings.enabled <;>
        by_cases hslow : (now - start) * 1000 < settings.slowQueryThresholdMs <;>
          simp [afterCursorExecute, popQueryObservation, hstarted, View.step, View.ended, view,
            recordQuery, henabled, hslow, Execution.slow, Execution.record, Execution.durationMs]

theorem view_afterCursorExecute_ne (hne : other ≠ conn) {statement : String} {parameters : P}
    {current : Option RequestContext} :
    (s.afterCursorExecute settings component other now statement parameters current).view conn =
      s.view conn := by
  cases hstarted : s.queryStarted other with
  | nil => simp [afterCursorExecute, popQueryObservation, hstarted]
  | cons start rest =>
      cases henabled : settings.enabled <;>
        by_cases hslow : (now - start) * 1000 < settings.slowQueryThresholdMs <;>
          simp [afterCursorExecute, popQueryObservation, hstarted, view, recordQuery, henabled,
            hslow, hne, hne.symm]

theorem view_handleError :
    (s.handleError settings component (some conn) now).view conn =
      (s.view conn).step settings component
        (.handleError (some conn) now : Event Engine Conn P) := by
  cases hstarted : s.queryStarted conn with
  | nil => simp [handleError, popQueryObservation, hstarted, View.step, view]
  | cons start rest =>
      cases henabled : settings.enabled <;>
        simp [handleError, popQueryObservation, hstarted, View.step, View.ended, view,
          recordQuery, henabled, Execution.slow, Execution.record, Execution.durationMs]

theorem view_handleError_ne (hne : other ≠ conn) :
    (s.handleError settings component (some other) now).view conn = s.view conn := by
  cases hstarted : s.queryStarted other with
  | nil => simp [handleError, popQueryObservation, hstarted]
  | cons start rest =>
      cases henabled : settings.enabled <;>
        simp [handleError, popQueryObservation, hstarted, view, recordQuery, henabled, hne,
          hne.symm]

end State

/-! ## Installations -/

namespace State

variable {settings : Settings} {component : String} {s t : State Engine Conn P} {conn : Conn}
  {now : ℚ}

/-- Two states with the same installations. -/
def SameInstallations (s t : State Engine Conn P) : Prop :=
  t.listeners = s.listeners ∧ t.observed = s.observed ∧ t.installing = s.installing

theorem sameInstallations_foldl {f : State Engine Conn P → String → State Engine Conn P}
    (hf : ∀ s component, SameInstallations s (f s component)) (components : List String)
    (s : State Engine Conn P) : SameInstallations s (components.foldl f s) := by
  induction components generalizing s with
  | nil => exact ⟨rfl, rfl, rfl⟩
  | cons component components ih =>
      obtain ⟨hlisteners, hobserved, hinstalling⟩ := ih (f s component)
      obtain ⟨hlisteners', hobserved', hinstalling'⟩ := hf s component
      exact ⟨hlisteners.trans hlisteners', hobserved.trans hobserved',
        hinstalling.trans hinstalling'⟩

section Installations

variable [DecidableEq Conn]

theorem sameInstallations_afterCursorExecute {statement : String} {parameters : P}
    {current : Option RequestContext} : SameInstallations s
      (s.afterCursorExecute settings component conn now statement parameters current) := by
  cases hstarted : s.queryStarted conn with
  | nil => simp [SameInstallations, afterCursorExecute, popQueryObservation, hstarted]
  | cons start rest =>
      cases henabled : settings.enabled <;>
        by_cases hslow : (now - start) * 1000 < settings.slowQueryThresholdMs <;>
          simp [SameInstallations, afterCursorExecute, popQueryObservation, hstarted, recordQuery,
            henabled, hslow]

theorem sameInstallations_handleError :
    SameInstallations s (s.handleError settings component (some conn) now) := by
  cases hstarted : s.queryStarted conn with
  | nil => simp [SameInstallations, handleError, popQueryObservation, hstarted]
  | cons start rest =>
      cases henabled : settings.enabled <;>
        simp [SameInstallations, handleError, popQueryObservation, hstarted, recordQuery, henabled]

theorem view_foldl {f : State Engine Conn P → String → State Engine Conn P}
    (hf : ∀ s component, (f s component).view conn = s.view conn) (components : List String)
    (s : State Engine Conn P) : (components.foldl f s).view conn = s.view conn := by
  induction components generalizing s with
  | nil => rfl
  | cons component components ih => exact (ih (f s component)).trans (hf s component)

end Installations

section Once

variable [DecidableEq Engine]

/-- The listeners of a hook of an engine, and those it is about to get. -/
def claims (s : State Engine Conn P) (engine : Engine) (hook : Hook) : Nat :=
  (s.listeners engine hook).length +
    s.installing.countP fun pending => pending.1 == engine && pending.2.2.awaits hook

/-- Every observed engine was claimed once. -/
def Once (s : State Engine Conn P) : Prop :=
  ∀ engine hook, s.claims engine hook = if engine ∈ s.observed then 1 else 0

theorem once_initial : (initial : State Engine Conn P).Once := fun _ _ => rfl

theorem Once.same (h : s.Once) (hsame : SameInstallations s t) : t.Once := by
  obtain ⟨hlisteners, hobserved, hinstalling⟩ := hsame
  intro engine hook
  rw [claims, hlisteners, hobserved, hinstalling]
  exact h engine hook

theorem Once.length_listeners_le (h : s.Once) (engine : Engine) (hook : Hook) :
    (s.listeners engine hook).length ≤ 1 := by
  have hengine := h engine hook
  rw [claims] at hengine
  split at hengine <;> omega

theorem Once.register (h : s.Once) {listened : Engine} {component : String} {registered : Hook}
    (hpending : (listened, component, registered) ∈ s.installing) :
    (s.register listened component registered).Once := by
  intro engine hook
  show claims _ engine hook = if engine ∈ s.observed then 1 else 0
  rw [← h engine hook]
  have hcount := (List.perm_cons_erase hpending).countP_eq fun pending =>
    pending.1 == engine && pending.2.2.awaits hook
  rcases eq_or_ne listened engine with rfl | hne
  · have hnext := Hook.awaits_next registered hook
    simp only [List.countP_cons, beq_self_eq_true, Bool.true_and] at hcount
    simp only [claims, State.register, List.countP_append, List.countP_map, Function.comp_def,
      beq_self_eq_true, Bool.true_and, Function.update_self]
    rcases eq_or_ne registered hook with rfl | hother
    · rw [Function.update_self, List.length_append, List.length_singleton]
      rw [if_pos rfl] at hnext
      omega
    · rw [Function.update_of_ne hother.symm]
      rw [if_neg hother] at hnext
      omega
  · have hnone : (registered.next.toList.map fun next => (listened, component, next)).countP
        (fun pending => pending.1 == engine && pending.2.2.awaits hook) = 0 := by
      simp [List.countP_eq_zero, hne]
    simp only [List.countP_cons, beq_eq_false_iff_ne.mpr hne, Bool.false_and, if_false,
      Nat.add_zero, Bool.false_eq_true] at hcount
    simp only [claims, State.register, List.countP_append, hnone, Function.update_of_ne hne.symm]
    omega

end Once

variable [DecidableEq Conn] [DecidableEq Engine] {engineOf : Conn → Engine} {engine : Engine}
  {event : Event Engine Conn P}

theorem Once.claim (h : s.Once) (claimed : Engine) (component : String) :
    (s.step settings engineOf (.claim claimed component)).Once := by
  simp only [State.step]
  split
  next => exact h
  next hnew =>
    intro engine hook
    have hengine := h engine hook
    rcases eq_or_ne claimed engine with rfl | hne
    · simp only [hnew, if_false] at hengine
      simp only [claims, List.countP_cons, beq_self_eq_true, Bool.true_and, Hook.awaits, if_true,
        List.mem_cons, true_or] at hengine ⊢
      omega
    · simpa [claims, hne, hne.symm] using hengine

theorem Once.listen (h : s.Once) (listened : Engine) (component : String) (hook : Hook) :
    (s.step settings engineOf (.listen listened component hook)).Once := by
  simp only [State.step]
  split
  next hpending => exact h.register hpending
  next => exact h

variable (settings engineOf s event) in
/-- A step installs something, or leaves the installations alone. -/
theorem sameInstallations_step :
    (∃ engine component, event = .claim engine component) ∨
      (∃ engine component hook, event = .listen engine component hook) ∨
      SameInstallations s (s.step settings engineOf event) := by
  cases event with
  | claim engine component => exact .inl ⟨engine, component, rfl⟩
  | listen engine component hook => exact .inr (.inl ⟨engine, component, hook, rfl⟩)
  | beforeCursorExecute other now =>
      exact .inr (.inr (sameInstallations_foldl (f := fun s _ => s.beforeCursorExecute other now)
        (fun _ _ => ⟨rfl, rfl, rfl⟩) _ s))
  | afterCursorExecute other now statement parameters current =>
      exact .inr (.inr (sameInstallations_foldl
        (fun _ _ => sameInstallations_afterCursorExecute) _ s))
  | handleError connection now =>
      cases connection with
      | none => exact .inr (.inr ⟨rfl, rfl, rfl⟩)
      | some other =>
          exact .inr (.inr (sameInstallations_foldl
            (fun _ _ => sameInstallations_handleError) _ s))

theorem Once.step (h : s.Once) : (s.step settings engineOf event).Once := by
  rcases sameInstallations_step settings s engineOf event with
    ⟨engine, component, rfl⟩ | ⟨engine, component, hook, rfl⟩ | hsame
  · exact h.claim engine component
  · exact h.listen engine component hook
  · exact h.same hsame

variable (settings engineOf s event) in
/-- An engine keeps its listeners. -/
theorem listeners_step (engine : Engine) (hook : Hook) : ∃ more,
    (s.step settings engineOf event).listeners engine hook = s.listeners engine hook ++ more := by
  rcases sameInstallations_step settings s engineOf event with
    ⟨claimed, component, rfl⟩ | ⟨listened, component, registered, rfl⟩ | ⟨hlisteners, -⟩
  · exact ⟨[], by simp only [State.step]; split <;> simp⟩
  · simp only [State.step]
    split
    next =>
      rcases eq_or_ne engine listened with rfl | hne
      · rcases eq_or_ne hook registered with rfl | hother
        · exact ⟨[component], by simp [register]⟩
        · exact ⟨[], by simp [register, hother]⟩
      · exact ⟨[], by simp [register, hne]⟩
    next => exact ⟨[], (List.append_nil _).symm⟩
  · exact ⟨[], by rw [hlisteners, List.append_nil]⟩

/-- A hook with a listener gets no other. -/
theorem Once.listeners_step (h : s.Once) {hook : Hook}
    (hlisteners : s.listeners engine hook = [component]) :
    (s.step settings engineOf event).listeners engine hook = [component] := by
  obtain ⟨more, hmore⟩ := State.listeners_step settings s engineOf event engine hook
  have hlength : ((s.step settings engineOf event).listeners engine hook).length ≤ 1 :=
    h.step.length_listeners_le engine hook
  rw [hmore, hlisteners] at hlength ⊢
  obtain rfl : more = [] := by simpa using hlength
  rfl

/-- A step that does not concern a connection. -/
theorem view_step_unconcerned (hconcerns : event.concerns conn = false) :
    (s.step settings engineOf event).view conn = s.view conn := by
  cases event with
  | claim engine component => simp only [State.step]; split <;> rfl
  | listen engine component hook => simp only [State.step]; split <;> rfl
  | beforeCursorExecute other now =>
      have hne : other ≠ conn := by simpa [Event.concerns] using hconcerns
      rw [State.step, view_foldl fun _ _ => view_beforeCursorExecute_ne hne]
  | afterCursorExecute other now statement parameters current =>
      have hne : other ≠ conn := by simpa [Event.concerns] using hconcerns
      rw [State.step, view_foldl fun _ _ => view_afterCursorExecute_ne hne]
  | handleError connection now =>
      cases connection with
      | none => rfl
      | some other =>
          have hne : other ≠ conn := by simpa [Event.concerns] using hconcerns
          rw [State.step, view_foldl fun _ _ => view_handleError_ne hne]

/-- What a step does to a connection that it concerns, where each hook has one listener. -/
theorem view_step (hlisteners : ∀ hook, s.listeners (engineOf conn) hook = [component])
    (hconcerns : event.concerns conn = true) :
    (s.step settings engineOf event).view conn = (s.view conn).step settings component event := by
  cases event with
  | claim engine component => cases hconcerns
  | listen engine component hook => cases hconcerns
  | beforeCursorExecute other now =>
      obtain rfl : other = conn := by simpa [Event.concerns] using hconcerns
      simp only [State.step, hlisteners, List.foldl_cons, List.foldl_nil]
      rw [view_beforeCursorExecute]
      rfl
  | afterCursorExecute other now statement parameters current =>
      obtain rfl : other = conn := by simpa [Event.concerns] using hconcerns
      simp only [State.step, hlisteners, List.foldl_cons, List.foldl_nil]
      rw [view_afterCursorExecute]
  | handleError connection now =>
      obtain rfl : connection = some conn := by simpa [Event.concerns] using hconcerns
      simp only [State.step, hlisteners, List.foldl_cons, List.foldl_nil]
      rw [view_handleError]

/-- A run, seen from a connection whose engine is observed. -/
theorem view_run (hs : s.Once)
    (hlisteners : ∀ hook, s.listeners (engineOf conn) hook = [component])
    (events : List (Event Engine Conn P)) :
    (s.run settings engineOf events).view conn =
      (events.filter (Event.concerns conn)).foldl (View.step settings component) (s.view conn) := by
  induction events generalizing s with
  | nil => rfl
  | cons event events ih =>
      rw [run, List.foldl_cons, ← run, ih hs.step fun hook => hs.listeners_step (hlisteners hook)]
      cases hconcerns : event.concerns conn with
      | true => rw [view_step hlisteners hconcerns, List.filter_cons_of_pos hconcerns,
          List.foldl_cons]
      | false => rw [view_step_unconcerned hconcerns, List.filter_cons_of_neg (by simp [hconcerns])]

/-- A run that does not concern a connection. -/
theorem view_run_unconcerned {events : List (Event Engine Conn P)}
    (hevents : ∀ event ∈ events, event.concerns conn = false) :
    (s.run settings engineOf events).view conn = s.view conn := by
  induction events generalizing s with
  | nil => rfl
  | cons event events ih =>
      obtain ⟨hevent, hevents⟩ := List.forall_mem_cons.mp hevents
      rw [run, List.foldl_cons, ← run, ih hevents, view_step_unconcerned hevent]

theorem Once.run (hs : s.Once) (events : List (Event Engine Conn P)) :
    (s.run settings engineOf events).Once := by
  induction events generalizing s with
  | nil => exact hs
  | cons event events ih => exact ih hs.step

/-! ## Before the observer -/

/-- A connection has begun nothing while its engine has no listener. -/
def Quiet (engineOf : Conn → Engine) (s : State Engine Conn P) : Prop :=
  ∀ conn, (∀ hook, s.listeners (engineOf conn) hook = []) → s.view conn = ⟨[], [], []⟩

/-- A step on a connection without listener does nothing to it. -/
theorem view_step_unobserved (hlisteners : ∀ hook, s.listeners (engineOf conn) hook = []) :
    (s.step settings engineOf event).view conn = s.view conn := by
  cases hconcerns : event.concerns conn with
  | false => exact view_step_unconcerned hconcerns
  | true =>
      cases event with
      | claim engine component => cases hconcerns
      | listen engine component hook => cases hconcerns
      | beforeCursorExecute other now =>
          obtain rfl : other = conn := by simpa [Event.concerns] using hconcerns
          simp only [State.step, hlisteners, List.foldl_nil]
      | afterCursorExecute other now statement parameters current =>
          obtain rfl : other = conn := by simpa [Event.concerns] using hconcerns
          simp only [State.step, hlisteners, List.foldl_nil]
      | handleError connection now =>
          obtain rfl : connection = some conn := by simpa [Event.concerns] using hconcerns
          simp only [State.step, hlisteners, List.foldl_nil]

theorem Quiet.step (h : s.Quiet engineOf) : (s.step settings engineOf event).Quiet engineOf := by
  intro conn hlisteners
  have hbefore : ∀ hook, s.listeners (engineOf conn) hook = [] := by
    intro hook
    obtain ⟨more, hmore⟩ := State.listeners_step settings s engineOf event (engineOf conn) hook
    exact (List.append_eq_nil_iff.mp (hmore.symm.trans (hlisteners hook))).1
  rw [view_step_unobserved hbefore, h conn hbefore]

theorem Quiet.run (h : s.Quiet engineOf) (events : List (Event Engine Conn P)) :
    (s.run settings engineOf events).Quiet engineOf := by
  induction events generalizing s with
  | nil => exact h
  | cons event events ih => exact ih h.step

end State

/-- **The observer records every execution once, with its own beginning.**  The events of all
connections and the installations come in any order.  From the time when an engine has its three
listeners, what is recorded for a connection are the nested executions that ended since, and what
is kept are those that are open, above what was left of the time before.  Where nothing happened on
the connection while the listeners were registered, nothing was left, and neither the ends of older
executions nor errors outside any execution are recorded.  No hook ever gets two listeners. -/
theorem observed_queries [DecidableEq Conn] [DecidableEq Engine] (settings : Settings)
    (engineOf : Conn → Engine) (first between later : List (Event Engine Conn P))
    (component : String) (conn : Conn)
    (hinstalled : ∀ hook, (State.initial.run settings engineOf (first ++ between)).listeners
      (engineOf conn) hook = [component]) :
    (∀ before, (State.initial.run settings engineOf (first ++ between)).view conn = before →
      ∀ ended opened, Nested conn (later.filter (Event.concerns conn)) ended opened →
        (State.initial.run settings engineOf (first ++ between ++ later)).view conn =
          ⟨opened ++ before.started, before.records ++ View.recorded settings component ended,
            before.slow ++ ended.filterMap (Execution.slow settings component)⟩) ∧
    ((∀ hook, (State.initial.run settings engineOf first).listeners (engineOf conn) hook = []) →
      (∀ event ∈ between, event.concerns conn = false) →
      ∀ ended opened, Session conn (later.filter (Event.concerns conn)) ended opened →
        (State.initial.run settings engineOf (first ++ between ++ later)).view conn =
          ⟨opened, View.recorded settings component ended,
            ended.filterMap (Execution.slow settings component)⟩) ∧
    ∀ engine hook, ((State.initial.run settings engineOf
      (first ++ between ++ later)).listeners engine hook).length ≤ 1 := by
  have honce : (State.initial.run settings engineOf (first ++ between)).Once :=
    State.once_initial.run _
  have hrun : (State.initial.run settings engineOf (first ++ between ++ later)).view conn =
      (later.filter (Event.concerns conn)).foldl (View.step settings component)
        ((State.initial.run settings engineOf (first ++ between)).view conn) := by
    rw [← State.view_run honce hinstalled]
    simp only [State.run, List.foldl_append]
  refine ⟨?_, ?_, (State.Once.run State.once_initial _).length_listeners_le⟩
  · rintro before rfl ended opened hnested
    rw [hrun, View.foldl_nested hnested]
  · intro hbefore hbetween ended opened hsession
    have hquiet : (State.initial.run settings engineOf first).Quiet engineOf :=
      State.Quiet.run (fun _ _ => rfl) first
    have hview : (State.initial.run settings engineOf (first ++ between)).view conn =
        ⟨[], [], []⟩ := by
      rw [State.run, List.foldl_append, ← State.run, ← State.run,
        State.view_run_unconcerned hbetween]
      exact hquiet conn hbefore
    rw [hrun, View.foldl_session hsession (by rw [hview]), hview]
    rfl

/-- The observer is installed while another connection executes. -/
def installation : List (Event Unit Bool Unit) :=
  [.listen () "sync-write" .beforeCursorExecute, .beforeCursorExecute false 0,
    .listen () "sync-write" .afterCursorExecute, .listen () "sync-write" .handleError]

/-- Nested executions on one connection, a failure on another and a second installation. -/
def interleaved : List (Event Unit Bool Unit) :=
  [.beforeCursorExecute true 1, .beforeCursorExecute false 2, .claim () "again",
    .beforeCursorExecute true 4, .handleError (some false) 5,
    .listen () "again" .beforeCursorExecute,
    .afterCursorExecute true 6 "SELECT 1" () none, .afterCursorExecute true 9 "SELECT 2" () none]

theorem observed_queries_nested :
    (State.initial.run ⟨true, 250, false⟩ (fun _ => ())
        ([.claim () "sync-write"] ++ installation ++ interleaved)).view true =
      ⟨[], View.recorded ⟨true, 250, false⟩ "sync-write"
          [⟨4, 6, some ("SELECT 1", (), none)⟩, ⟨1, 9, some ("SELECT 2", (), none)⟩],
        [⟨4, 6, some ("SELECT 1", (), none)⟩, ⟨1, 9, some ("SELECT 2", (), none)⟩].filterMap
          (Execution.slow ⟨true, 250, false⟩ "sync-write")⟩ ∧
    ∀ engine hook, ((State.initial.run ⟨true, 250, false⟩ (fun _ => ())
      ([.claim () "sync-write"] ++ installation ++ interleaved)).listeners
        engine hook).length ≤ 1 := by
  have hobserved := observed_queries ⟨true, 250, false⟩ (fun _ => ()) [.claim () "sync-write"]
    installation interleaved "sync-write" true (fun hook => by cases hook <;> rfl)
  exact ⟨hobserved.2.1 (fun _ => rfl) (by decide) _ _
    (.nested (.execution (.execution .nil (.returned 6 "SELECT 1" () none) .nil)
      (.returned 9 "SELECT 2" () none) .nil)), hobserved.2.2⟩

end ProdkitStorage.Database.Observability
