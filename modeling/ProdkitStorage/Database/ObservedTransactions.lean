import ProdkitStorage.Database.SessionTransactions

/-!
# Transactions of a database

`transaction` and `read_transaction` of `SyncDatabase` in `database/runtime.py`, which differ in
the session they open and in what they tell the telemetry.  A block runs in a transaction of a
session, in a span; when all of them are left, one record says how it went.  The telemetry is
switched on, and no connection is in `AUTOCOMMIT`.

The session and the span may fail at every call.  The session commits when the block returned and
its transaction is still active, and abandons what is left otherwise.  A block that ends the
transaction itself, or goes on after a statement that broke it off, leaves it inactive.
-/

namespace ProdkitStorage.Database.ObservedTransactions

open ProdkitStorage.Foundation
open ProdkitStorage.Foundation.Program

variable {W ε α : Type}

/-! ## The session and the telemetry -/

/-- What a transaction calls. -/
inductive Call (W : Type) where
  /-- The span of `start_span` is entered. -/
  | startSpan
  | endSpan
  | session (call : SessionCall W)
  /-- `record_transaction`. -/
  | record (outcome : String) (readOnly : Bool) (component : String)

/-- What a call returns. -/
abbrev Reply {W : Type} : Call W → Type
  | .session op => SessionReply op
  | _ => Unit

/-- What `record_transaction` is told, but for the duration. -/
structure TransactionRecord where
  outcome : String
  readOnly : Bool
  component : String
deriving DecidableEq, Repr

/-- The database, the session and the telemetry. -/
structure State (W : Type) extends SessionState W where
  records : List TransactionRecord

/-- How a call may be answered. -/
inductive Serves : State W → (call : Call W) → Except ε (Reply call) → State W → Prop where
  | startSpan (s : State W) : Serves s .startSpan (.ok ()) s
  | startSpanFails (s : State W) (e : ε) : Serves s .startSpan (.error e) s
  | endSpan (s : State W) : Serves s .endSpan (.ok ()) s
  | endSpanFails (s : State W) (e : ε) : Serves s .endSpan (.error e) s
  | session {s : State W} {call : SessionCall W} {reply : Except ε (SessionReply call)}
      {t : SessionState W} : SessionServes s.toSessionState call reply t →
      Serves s (.session call) reply { s with toSessionState := t }
  | record (s : State W) (outcome : String) (readOnly : Bool) (component : String) :
      Serves s (.record outcome readOnly component) (.ok ())
        { s with records := s.records ++ [⟨outcome, readOnly, component⟩] }

/-! ## The transaction -/

/-- A program that makes calls. -/
abbrev Code (W ε α : Type) := Program (Call W) Reply ε α

/-- One call of the session. -/
def ask (call : SessionCall W) : Code W ε (SessionReply call) := perform (Call.session call)

/-- The outcome after a last call, whose error takes its place. -/
def afterLast (outcome : Except ε α) : Except ε Unit → Except ε α
  | .ok _ => outcome
  | .error e => .error e

/-- A last call. -/
def ending (last : Code W ε Unit) (outcome : Except ε α) : Code W ε α :=
  last.andThen fun ended => .done (afterLast outcome ended)

/-- `with enter: body`, which `last` leaves in any case. -/
def within_ (enter last : Code W ε Unit) (body : Code W ε α) : Code W ε α :=
  enter.andThen fun entered =>
    match entered with
    | .ok _ => body.andThen (ending last)
    | .error e => .done (.error e)

/-- How `with session.begin()` leaves the transaction after its block. -/
def settle : Except ε α → Code W ε α
  | .ok a => do
      let active ← ask .isActive
      if active then
        (ask .commit).andThen fun committed =>
          match committed with
          | .ok _ => .done (.ok a)
          | .error e => ending (ask .rollback) (.error e)
      else ending (ask .rollback) (.ok a)
  | .error e => ending (ask .rollback) (.error e)

/-- `with session.begin(): block`. -/
def inTransaction (block : SessionBlock W ε α) : Code W ε α :=
  (ask (.begin_ true)).andThen fun begun =>
    match begun with
    | .ok _ => (block.interp (sessionMethod ask)).andThen settle
    | .error e => .done (.error e)

/-- The text of `outcome`. -/
def outcomeText : Except ε α → String
  | .ok _ => "committed"
  | .error _ => "rolled_back"

/-- A transaction around a block, and its record. -/
def observedTransaction (readOnly : Bool) (component : String) (block : SessionBlock W ε α) :
    Code W ε α :=
  (within_ (perform Call.startSpan) (perform Call.endSpan)
    (within_ (ask .make) (ask .close) (inTransaction block))).andThen fun result =>
      ending (perform (Call.record (outcomeText result) readOnly component)) result

/-- `SyncDatabase.transaction`. -/
def transaction (block : SessionBlock W ε α) : Code W ε α :=
  observedTransaction false "sync-write" block

/-- `SyncDatabase.read_transaction`. -/
def readTransaction (block : SessionBlock W ε α) : Code W ε α :=
  observedTransaction true "sync-read" block

/-! ## What each part does -/

theorem exec_ask {call : SessionCall W} {s t : State W} {reply : Except ε (SessionReply call)} :
    Exec Serves (ask call) s reply t ↔
      SessionServes s.toSessionState call reply t.toSessionState ∧ t.records = s.records := by
  rw [ask, exec_perform]
  constructor
  · intro h
    cases h with
    | session hserves => exact ⟨hserves, rfl⟩
  · rintro ⟨hserves, hrecords⟩
    obtain ⟨u, records⟩ := t
    obtain rfl : records = s.records := hrecords
    exact .session hserves

theorem exec_ending {last : Code W ε Unit} {outcome result : Except ε α} {s t : State W} :
    Exec Serves (ending last outcome) s result t ↔
      ∃ ended, Exec Serves last s ended t ∧ result = afterLast outcome ended := by
  rw [ending, exec_andThen]
  constructor
  · rintro ⟨ended, u, hlast, hrest⟩
    obtain ⟨rfl, rfl⟩ := exec_done.mp hrest
    exact ⟨ended, hlast, rfl⟩
  · rintro ⟨ended, hlast, rfl⟩
    exact ⟨ended, t, hlast, exec_done.mpr ⟨rfl, rfl⟩⟩

/-- A body that was not entered, or one that was, and was left. -/
theorem exec_within {enter last : Code W ε Unit} {body : Code W ε α} {outcome : Except ε α}
    {s t : State W} (h : Exec Serves (within_ enter last body) s outcome t) :
    (∃ e, Exec Serves enter s (.error e) t ∧ outcome = .error e) ∨
      ∃ u result v ended, Exec Serves enter s (.ok ()) u ∧ Exec Serves body u result v ∧
        Exec Serves last v ended t ∧ outcome = afterLast result ended := by
  obtain ⟨entered, u, henter, hrest⟩ := exec_andThen.mp h
  cases entered with
  | error e =>
      obtain ⟨rfl, rfl⟩ := exec_done.mp hrest
      exact .inl ⟨e, henter, rfl⟩
  | ok _ =>
      obtain ⟨result, v, hbody, hlast⟩ := exec_andThen.mp hrest
      obtain ⟨ended, hended, houtcome⟩ := exec_ending.mp hlast
      exact .inr ⟨u, result, v, ended, henter, hbody, hended, houtcome⟩

theorem afterLast_eq_ok {outcome : Except ε α} {ended : Except ε Unit} {a : α}
    (h : afterLast outcome ended = .ok a) : outcome = .ok a ∧ ended = .ok () := by
  cases ended with
  | ok _ => exact ⟨h, rfl⟩
  | error e => cases h

theorem afterLast_error (e : ε) (ended : Except ε Unit) :
    ∃ e', afterLast (.error e : Except ε α) ended = .error e' := by
  cases ended with
  | ok _ => exact ⟨e, rfl⟩
  | error e' => exact ⟨e', rfl⟩

/-! ## Leaving the transaction -/

/-- What has become of a block that ended with `result` in `u`. -/
structure Settled (result : Except ε α) (u : State W) (outcome : Except ε α) (t : State W) :
    Prop where
  records : t.records = u.records
  /-- It returned, and all that was pending is one transaction, unless it had ended its own. -/
  ok : ∀ a, outcome = .ok a → result = .ok a ∧
    t.committed = if u.active then u.committed ++ [u.pending] else u.committed
  /-- Something failed, and nothing is committed unless a commit was sent. -/
  error : ∀ e, outcome = .error e → t.committed = u.committed ∨
    (u.active = true ∧ (∃ a, result = .ok a) ∧ t.committed = u.committed ++ [u.pending])

theorem exec_ending_rollback {result outcome : Except ε α} {s t : State W}
    (h : Exec Serves (ending (ask .rollback) result) s outcome t) :
    t.records = s.records ∧ t.committed = s.committed ∧ ∀ a, outcome = .ok a → result = .ok a := by
  obtain ⟨ended, hended, rfl⟩ := exec_ending.mp h
  obtain ⟨hrollback, hrecords⟩ := exec_ask.mp hended
  exact ⟨hrecords, hrollback.rollback_committed, fun a ha => (afterLast_eq_ok ha).1⟩

/-- A commit that succeeds, one that does not arrive, and one whose answer is lost. -/
theorem serves_commit {reply : Except ε Unit} {u w : SessionState W}
    (h : SessionServes u .commit reply w) :
    (reply = .ok () ∧ w.committed = u.committed ++ [u.pending]) ∨
      (∃ e, reply = .error e) ∧
        (w.committed = u.committed ∨ w.committed = u.committed ++ [u.pending]) := by
  cases h with
  | commit _ => exact .inl ⟨rfl, rfl⟩
  | commitFails e kept active => exact .inr ⟨⟨e, rfl⟩, .inl rfl⟩
  | commitLost e _ => exact .inr ⟨⟨e, rfl⟩, .inr rfl⟩

theorem exec_settle {result outcome : Except ε α} {u t : State W}
    (h : Exec Serves (settle result) u outcome t) : Settled result u outcome t := by
  cases result with
  | error e =>
      obtain ⟨hrecords, hsame, hok⟩ := exec_ending_rollback h
      exact ⟨hrecords, fun a ha => (by cases hok a ha), fun _ _ => .inl hsame⟩
  | ok a =>
      obtain ⟨hactive, hrest⟩ : u.active = u.active ∧ Exec Serves (if u.active then
          (ask .commit).andThen fun committed =>
            match committed with
            | .ok _ => .done (.ok a)
            | .error e => ending (ask .rollback) (.error e)
          else ending (ask .rollback) (.ok a)) u outcome t := by
        rcases exec_bind.mp h with ⟨e, hactive, -⟩ | ⟨active, v, hactive, hrest⟩
        · cases (exec_ask.mp hactive).1
        · obtain ⟨hserves, hrecords⟩ := exec_ask.mp hactive
          obtain ⟨v, records⟩ := v
          obtain rfl : records = u.records := hrecords
          cases hserves
          exact ⟨rfl, hrest⟩
      cases hu : u.active with
      | false =>
          rw [hu, if_neg Bool.false_ne_true] at hrest
          obtain ⟨hrecords, hsame, hok⟩ := exec_ending_rollback hrest
          refine ⟨hrecords, fun a' ha => ⟨hok a' ha, ?_⟩, fun _ _ => .inl hsame⟩
          rw [hu, if_neg Bool.false_ne_true, hsame]
      | true =>
          rw [hu, if_pos rfl] at hrest
          obtain ⟨reply, w, hcommit, hend⟩ := exec_andThen.mp hrest
          obtain ⟨hserves, hkept⟩ := exec_ask.mp hcommit
          rcases serves_commit hserves with ⟨rfl, hcommitted⟩ | ⟨⟨e, rfl⟩, hcommitted⟩
          · obtain ⟨rfl, rfl⟩ := exec_done.mp hend
            refine ⟨hkept, fun a' ha => ⟨ha, ?_⟩, fun e he => by cases he⟩
            rw [hu, if_pos rfl, hcommitted]
          · obtain ⟨hrecords, hsame, hok⟩ := exec_ending_rollback hend
            refine ⟨hrecords.trans hkept, fun a' ha => (by cases hok a' ha), fun _ _ => ?_⟩
            rcases hcommitted with hnone | hall
            · exact .inl (hsame.trans hnone)
            · exact .inr ⟨hu, ⟨a, rfl⟩, hsame.trans hall⟩

/-- The state in which a block begins. -/
def begun (s : State W) : State W := ⟨.fresh s.committed true, s.records⟩

/-- A transaction that was never begun, or what became of its block. -/
def Ended (block : SessionBlock W ε α) (s : State W) (outcome : Except ε α) (t : State W) : Prop :=
  (t.records = s.records ∧ t.committed = s.committed ∧ ∃ e, outcome = .error e) ∨
    ∃ result u settled v, Exec Serves (block.interp (sessionMethod ask)) (begun s) result u ∧
      Settled result u settled v ∧ t.records = v.records ∧ t.committed = v.committed ∧
        ∀ a, outcome = .ok a → settled = .ok a ∧ t.live = false ∧ t.pending = []

/-- The session around the transaction. -/
theorem exec_session {block : SessionBlock W ε α} {s t : State W} {outcome : Except ε α}
    (h : Exec Serves (within_ (ask .make) (ask .close) (inTransaction block)) s outcome t) :
    Ended block s outcome t := by
  rcases exec_within h with ⟨e, hmake, rfl⟩ | ⟨u, result, v, ended, hmake, hbody, hclose, rfl⟩
  · obtain ⟨hserves, hrecords⟩ := exec_ask.mp hmake
    exact .inl ⟨hrecords, hserves.committed.resolve_right (by simp), e, rfl⟩
  obtain ⟨hmade, hmadeRecords⟩ := exec_ask.mp hmake
  obtain ⟨hclosed, hrecords⟩ := exec_ask.mp hclose
  obtain ⟨hsame, hpending, hlive⟩ := hclosed.close_committed
  have hcommitted : u.committed = s.committed := hmade.committed.resolve_right (by simp)
  obtain ⟨reply, w, hbegin, hrest⟩ := exec_andThen.mp hbody
  obtain ⟨hbegun, hbegunRecords⟩ := exec_ask.mp hbegin
  cases reply with
  | error e =>
      obtain ⟨rfl, rfl⟩ := exec_done.mp hrest
      have hkept : v.committed = u.committed := hbegun.committed.resolve_right (by simp)
      exact .inl ⟨hrecords.trans (hbegunRecords.trans hmadeRecords),
        hsame.trans (hkept.trans hcommitted), afterLast_error e ended⟩
  | ok _ =>
      obtain rfl : w = begun s := by
        obtain ⟨w, records⟩ := w
        obtain ⟨u, records'⟩ := u
        obtain rfl : records = records' := hbegunRecords
        obtain rfl : records = s.records := hmadeRecords
        simp only at hmade hbegun
        cases hmade
        cases hbegun
        rfl
      obtain ⟨result', u, hblock, hsettle⟩ := exec_andThen.mp hrest
      refine .inr ⟨result', u, result, v, hblock, exec_settle hsettle, hrecords, hsame, ?_⟩
      intro a ha
      obtain ⟨hresult, hended⟩ := afterLast_eq_ok ha
      exact ⟨hresult, hlive hended, hpending⟩

/-- The span around the session. -/
theorem exec_span {block : SessionBlock W ε α} {s t : State W} {outcome : Except ε α}
    (h : Exec Serves (within_ (perform Call.startSpan) (perform Call.endSpan)
      (within_ (ask .make) (ask .close) (inTransaction block))) s outcome t) :
    Ended block s outcome t := by
  rcases exec_within h with ⟨e, hstart, rfl⟩ | ⟨u, result, v, ended, hstart, hbody, hlast, rfl⟩
  · cases exec_perform.mp hstart
    exact .inl ⟨rfl, rfl, e, rfl⟩
  cases exec_perform.mp hstart
  have hended := exec_session hbody
  obtain rfl : v = t := by
    cases exec_perform.mp hlast with
    | endSpan => rfl
    | endSpanFails e => rfl
  rcases hended with ⟨hrecords, hsame, e, rfl⟩ | ⟨result', u, settled, w, hblock, hsettled,
    hrecords, hsame, hok⟩
  · exact .inl ⟨hrecords, hsame, afterLast_error e ended⟩
  · exact .inr ⟨result', u, settled, w, hblock, hsettled, hrecords, hsame,
      fun a ha => hok a (afterLast_eq_ok ha).1⟩

/-! ## Blocks -/

/-- A method of the session. -/
theorem exec_method {call : BlockCall W} {s t : State W} {reply : Except ε Unit}
    (h : Exec Serves (sessionMethod ask call) s reply t) :
    t.records = s.records ∧ (t.committed = s.committed ∨
      t.committed = s.committed ++ [s.pending]) := by
  cases call with
  | execute write =>
      obtain ⟨hserves, hrecords⟩ := exec_ask.mp h
      exact ⟨hrecords, hserves.committed.imp_right And.right⟩
  | commit =>
      obtain ⟨hserves, hrecords⟩ := exec_ask.mp h
      exact ⟨hrecords, hserves.committed.imp_right And.right⟩
  | rollback =>
      obtain ⟨hserves, hrecords⟩ := exec_ask.mp h
      exact ⟨hrecords, hserves.committed.imp_right And.right⟩

/-- A block does not record, and only adds transactions. -/
theorem exec_block {block : SessionBlock W ε α} {s u : State W} {result : Except ε α}
    (h : Exec Serves (block.interp (sessionMethod ask)) s result u) :
    u.records = s.records ∧ s.committed <+: u.committed := by
  rw [exec_interp] at h
  refine (Calls.any block).keeps (I := fun u => u.records = s.records ∧
    s.committed <+: u.committed) ?_ h ⟨rfl, List.prefix_rfl⟩
  rintro u call reply v - ⟨hrecords, hprefix⟩ hmethod
  obtain ⟨hkept, hsame | hadded⟩ := exec_method hmethod
  · exact ⟨hkept.trans hrecords, hsame ▸ hprefix⟩
  · exact ⟨hkept.trans hrecords, hadded ▸ hprefix.trans (List.prefix_append _ _)⟩

/-- A block that only writes. -/
theorem exec_writes {writes : List W} {s u : State W} {result : Except ε Unit}
    (h : Exec Serves ((executeAll writes).interp (sessionMethod ask)) s result u) :
    u.committed = s.committed ∧ ∀ a, result = .ok a →
      u.pending = s.pending ++ writes ∧ (s.active = true → u.active = true) := by
  rw [exec_interp] at h
  exact exec_executeAll State.toSessionState
    (fun s write reply t hserves => (exec_ask.mp hserves).1) h

/-! ## What is recorded -/

theorem exec_transaction {readOnly : Bool} {component : String} {block : SessionBlock W ε α}
    {s t : State W} {outcome : Except ε α}
    (h : Exec Serves (observedTransaction readOnly component block) s outcome t) :
    ∃ u, Ended block s outcome u ∧
      t = { u with records := u.records ++ [⟨outcomeText outcome, readOnly, component⟩] } := by
  obtain ⟨result, u, hspan, hrecord⟩ := exec_andThen.mp h
  obtain ⟨ended, hended, rfl⟩ := exec_ending.mp hrecord
  cases exec_perform.mp hended
  exact ⟨u, exec_span hspan, rfl⟩

/-- A transaction that returned, or did not, and its record. -/
structure Told (readOnly : Bool) (component : String) (block : SessionBlock W ε α) (s : State W)
    (outcome : Except ε α) (t : State W) : Prop where
  /-- It is recorded once. -/
  records : t.records = s.records ++ [⟨outcomeText outcome, readOnly, component⟩]
  /-- Nothing that was committed is lost. -/
  kept : s.committed <+: t.committed
  /-- When it returned, the session is closed, and all that was pending at the end of the block is
  one committed transaction, unless the block had ended its own. -/
  committed : ∀ a, outcome = .ok a → t.live = false ∧ t.pending = [] ∧
    ∃ u, Exec Serves (block.interp (sessionMethod ask)) (begun s) (.ok a) u ∧
      t.committed = if u.active then u.committed ++ [u.pending] else u.committed
  /-- When it raised, nothing is committed after the block, unless the block returned and a commit
  was sent that arrived before something failed. -/
  rolledBack : ∀ e, outcome = .error e → t.committed = s.committed ∨
    ∃ result u, Exec Serves (block.interp (sessionMethod ask)) (begun s) result u ∧
      (t.committed = u.committed ∨ u.active = true ∧ (∃ a, result = .ok a) ∧
        t.committed = u.committed ++ [u.pending])

theorem Settled.committed_cases {result settled : Except ε α} {u v : State W}
    (h : Settled result u settled v) : v.committed = u.committed ∨
      u.active = true ∧ (∃ a, result = .ok a) ∧ v.committed = u.committed ++ [u.pending] := by
  cases settled with
  | error e => exact h.error e rfl
  | ok a =>
      obtain ⟨rfl, hcommitted⟩ := h.ok a rfl
      cases hu : u.active with
      | false => exact .inl (by simpa [hu] using hcommitted)
      | true => exact .inr ⟨rfl, ⟨a, rfl⟩, by simpa [hu] using hcommitted⟩

theorem transaction_told {readOnly : Bool} {component : String} {block : SessionBlock W ε α}
    {s t : State W} {outcome : Except ε α}
    (h : Exec Serves (observedTransaction readOnly component block) s outcome t) :
    Told readOnly component block s outcome t := by
  obtain ⟨u, hended, rfl⟩ := exec_transaction h
  rcases hended with ⟨hrecords, hsame, e, rfl⟩ |
    ⟨result, v, settled, w, hblock, hsettled, hrecords, hsame, hok⟩
  · exact ⟨by rw [hrecords], hsame ▸ List.prefix_rfl, fun a ha => (by cases ha),
      fun _ _ => .inl hsame⟩
  obtain ⟨hbegun, hprefix⟩ := exec_block hblock
  have hcases := hsettled.committed_cases
  refine ⟨?_, ?_, fun a ha => ?_, fun e _ => ?_⟩
  · rw [hrecords.trans (hsettled.records.trans hbegun)]
    rfl
  · rcases hcases with hnone | ⟨-, -, hall⟩
    · exact (hsame.trans hnone) ▸ hprefix
    · exact (hsame.trans hall) ▸ hprefix.trans (List.prefix_append _ _)
  · obtain ⟨hsettledOk, hlive, hpending⟩ := hok a ha
    obtain ⟨rfl, hcommitted⟩ := hsettled.ok a hsettledOk
    exact ⟨hlive, hpending, v, hblock, hsame.trans hcommitted⟩
  · rcases hcases with hnone | ⟨hactive, hreturned, hall⟩
    · exact .inr ⟨result, v, hblock, .inl (hsame.trans hnone)⟩
    · exact .inr ⟨result, v, hblock, .inr ⟨hactive, hreturned, hsame.trans hall⟩⟩

end ProdkitStorage.Database.ObservedTransactions
