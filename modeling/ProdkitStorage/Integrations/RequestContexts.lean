import ProdkitStorage.Context
import ProdkitStorage.Foundation.DynamicScope

/-!
# Request contexts of concurrent requests

`request_context` and `tenant_context` of `context.py`, and the middleware of
`integrations/fastapi/context.py`.  The context variable is the variable of `DynamicScope`:
every `asyncio` task has a copy of it, `set` returns a token and `reset` takes one.

A server runs its tasks in any order.  A task serves one request after another, and the
applications may enter contexts, start tasks and raise as they like.
-/

namespace ProdkitStorage.Integrations

open ProdkitStorage.Foundation
open ProdkitStorage.Foundation.DynamicScope
open ProdkitStorage.Python

/-- Code that runs in a task. -/
abbrev ContextCode := Code (Option RequestContext)

abbrev ContextTask := DynamicScope.Task (Option RequestContext)

/-- `with request_context(context): body`, and what follows. -/
def requestContext (context : RequestContext) (body next : ContextCode) : ContextCode :=
  .within (some context) body next

/-- `with tenant_context(tenant_id, ...): body`, and what follows. -/
def tenantContext (tenantId : Uuid) (actorId : Option Uuid) (requestId traceId : Option String)
    (body next : ContextCode) : ContextCode :=
  requestContext { tenantId := some tenantId, actorId, requestId, traceId } body next

/-- `get_request_context()`, and what follows. -/
def withRequestContext (next : RequestContext → ContextCode) : ContextCode :=
  .read fun current => next (getRequestContext current)

/-- The scope of a connection, of which the middleware reads the type. -/
structure Scope (σ : Type) where
  type : String
  connection : σ

/-- `RequestContextMiddleware`.  A resolver may raise. -/
structure RequestContextMiddleware (σ : Type) where
  app : Scope σ → ContextCode
  resolver : σ → Option RequestContext

namespace RequestContextMiddleware

variable {σ : Type} (middleware : RequestContextMiddleware σ)

def isRequest (scope : Scope σ) : Bool := ["http", "websocket"].contains scope.type

/-- `__call__`. -/
def call (scope : Scope σ) : ContextCode :=
  if isRequest scope then
    match middleware.resolver scope.connection with
    | none => .fail
    | some context => requestContext context (middleware.app scope) .done
  else middleware.app scope

/-- A task serves its requests, and survives their exceptions. -/
def serve : List (Scope σ) → ContextCode
  | [] => .done
  | scope :: later => .guarded (middleware.call scope) .done (serve later)

/-! ## What the requests see -/

/-- What the application shows for a request: under the context that the resolver gave for it, or
under the one around it when it is no request. -/
def shown (current : Option RequestContext) (scope : Scope σ) :
    List (Seen (Option RequestContext)) :=
  if isRequest scope then
    match middleware.resolver scope.connection with
    | none => []
    | some context => (meaning (some context) (middleware.app scope)).seen
  else (meaning current (middleware.app scope)).seen

theorem seen_call (current : Option RequestContext) (scope : Scope σ) :
    (meaning current (middleware.call scope)).seen = middleware.shown current scope := by
  unfold call shown
  split
  · cases middleware.resolver scope.connection with
    | none => rfl
    | some context =>
        cases hraised : (meaning (some context) (middleware.app scope)).raised <;>
          simp [requestContext, meaning, Meaning.andThen, Meaning.resume, hraised]
  · rfl

theorem meaning_serve (current : Option RequestContext) (scopes : List (Scope σ)) :
    meaning current (middleware.serve scopes) =
      ⟨scopes.flatMap (middleware.shown current), false⟩ := by
  induction scopes with
  | nil => rfl
  | cons scope later ih =>
      rw [List.flatMap_cons, ← seen_call]
      cases hraised : (meaning current (middleware.call scope)).raised <;>
        simp [serve, meaning, Meaning.andThen, Meaning.rescue, Meaning.resume, hraised, ih]

/-- The tasks of a server, which begin under one context. -/
def server (base : Option RequestContext) (connections : List (List (Scope σ))) :
    System (List ContextTask) Nat :=
  machine (connections.map fun scopes => (base, middleware.serve scopes))

/-- How the tasks of a server stand. -/
structure Served (base : Option RequestContext) (connections : List (List (Scope σ)))
    (s : List ContextTask) : Prop where
  /-- The task of a connection has shown what its requests see, one after another. -/
  connection : ∀ (id : Nat) (scopes : List (Scope σ)), connections[id]? = some scopes →
    ∃ task, s[id]? = some task ∧
      (∃ later, scopes.flatMap (middleware.shown base) = task.log ++ later) ∧
      (task.finished = true → task.log = scopes.flatMap (middleware.shown base) ∧
        task.raising = false ∧ task.cell = base)
  /-- Any other task was started by a task before it, and goes on under the context that this one
  had there, whatever it has entered and left since. -/
  started : ∀ (id : Nat) (task : ContextTask), s[id]? = some task →
    connections.length ≤ id →
    (∃ (parent : Nat) (creator : ContextTask), parent < id ∧
      s[parent]? = some creator ∧ Seen.spawned task.inherited task.code ∈ creator.log) ∧
    (∃ later, (meaning task.inherited task.code).seen = task.log ++ later) ∧
    (task.finished = true → meaning task.inherited task.code = ⟨task.log, task.raising⟩ ∧
      task.cell = task.inherited)
  /-- A request that enters no context sees the resolver's everywhere, and starts its tasks
  under it. -/
  own : ∀ (scope : Scope σ) (context : RequestContext), isRequest scope = true →
    middleware.resolver scope.connection = some context → Plain (middleware.app scope) →
    ∀ item ∈ middleware.shown base scope, item.Shows (some context)

/-- **Concurrent requests keep their contexts.** -/
theorem request_contexts (base : Option RequestContext) (connections : List (List (Scope σ)))
    {h : List Nat} {s : List ContextTask}
    (hr : (middleware.server base connections).Reaches h s) :
    middleware.Served base connections s := by
  have hlexical := lexical hr
  refine ⟨fun id scopes hscopes => ?_, fun id task htask hid => ?_,
    fun scope context hrequest hresolver hplain => ?_⟩
  · obtain ⟨task, htask, hitem⟩ := hlexical.first id (base, middleware.serve scopes)
      (by rw [List.getElem?_map, hscopes]; rfl)
    obtain ⟨hinherited, hcode⟩ := Prod.mk.inj hitem
    have hexplained := hlexical.tasks id task htask
    have hmeaning : meaning task.inherited task.code =
        ⟨scopes.flatMap (middleware.shown base), false⟩ := by
      rw [hinherited, hcode, meaning_serve]
    refine ⟨task, htask, ?_, fun hfinished => ?_⟩
    · simpa only [hmeaning] using hexplained.shown
    · obtain ⟨hshown, hcell⟩ := hexplained.finished hfinished
      rw [hmeaning, Meaning.mk.injEq] at hshown
      exact ⟨hshown.1.symm, hshown.2.symm, hcell.trans hinherited⟩
  · have hexplained := hlexical.tasks id task htask
    exact ⟨hlexical.later id task htask (by simpa using hid), hexplained.shown,
      hexplained.finished⟩
  · rw [shown, if_pos hrequest, hresolver]
    exact hplain.shows

/-- An application that reads its context and starts a task that does. -/
def reader : RequestContextMiddleware RequestContext where
  app _ := .spawn (withRequestContext fun _ => .done) (withRequestContext fun _ => .done)
  resolver context := some context

theorem request_contexts_interleaved :
    ∃ s, (reader.server none [[⟨"http", { requestId := some "a" }⟩],
        [⟨"websocket", { requestId := some "b" }⟩]]).Reaches [2, 0, 1, 0, 1, 1, 1, 0, 0] s ∧
      reader.Served none [[⟨"http", { requestId := some "a" }⟩],
        [⟨"websocket", { requestId := some "b" }⟩]] s :=
  have hreaches := ((((((((((System.Reaches.init rfl).step rfl).step rfl).step rfl).step rfl).step
    rfl).step rfl).step rfl).step rfl).step rfl)
  ⟨_, hreaches, reader.request_contexts none _ hreaches⟩

end RequestContextMiddleware

end ProdkitStorage.Integrations
