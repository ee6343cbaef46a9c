import ProdkitStorage.Foundation.Program

/-!
# Sessions and their transactions

The SQLAlchemy session of a unit of work and of a transaction of the database, as a service that
may fail at every call.

A session keeps the writes of its open transaction, and a commit makes them durable together.  A
commit that fails may still have arrived at the server, a rollback or a statement that fails may or
may not have lost the writes, and closing a session abandons its transaction.  A session goes on
with a new transaction after one has ended, except within `with session.begin()`.
-/

namespace ProdkitStorage.Database

open ProdkitStorage.Foundation
open ProdkitStorage.Foundation.Program

variable {W ε : Type}

/-- What a session is asked. -/
inductive SessionCall (W : Type) where
  /-- The factory of the sessions. -/
  | make
  /-- `begin`, for the block of a `with` statement when it is managed. -/
  | begin_ (managed : Bool)
  | execute (write : W)
  /-- Whether the transaction of the session is active. -/
  | isActive
  | commit
  | rollback
  | close

/-- What it replies. -/
abbrev SessionReply {W : Type} : SessionCall W → Type
  | .isActive => Bool
  | _ => Unit

/-- The database and the session. -/
structure SessionState (W : Type) where
  /-- The committed transactions, the newest last. -/
  committed : List (List W)
  pending : List W
  active : Bool
  managed : Bool
  /-- The session was made and not closed. -/
  live : Bool

namespace SessionState

/-- A session of a database that no block has used. -/
def fresh (committed : List (List W)) (managed : Bool) : SessionState W where
  committed := committed
  pending := []
  active := true
  managed := managed
  live := true

/-- The session may write and commit: within `with session.begin()` only in the transaction that
was begun there. -/
def Usable (s : SessionState W) : Prop := s.active = true ∨ s.managed = false

/-- What is pending becomes a transaction. -/
def commits (s : SessionState W) : SessionState W :=
  { s with committed := s.committed ++ [s.pending], pending := [], active := false }

end SessionState

/-- How a session may answer. -/
inductive SessionServes :
    SessionState W → (call : SessionCall W) → Except ε (SessionReply call) → SessionState W → Prop
    where
  | make (s : SessionState W) : SessionServes s .make (.ok ())
      { s with pending := [], active := false, managed := false, live := true }
  | makeFails (s : SessionState W) (e : ε) : SessionServes s .make (.error e) s
  | begin_ (s : SessionState W) (managed : Bool) :
      SessionServes s (.begin_ managed) (.ok ()) { s with active := true, managed }
  | beginFails (s : SessionState W) (managed : Bool) (e : ε) :
      SessionServes s (.begin_ managed) (.error e) s
  | execute (s : SessionState W) (write : W) : s.Usable → SessionServes s (.execute write) (.ok ())
      { s with pending := s.pending ++ [write], active := true }
  /-- The statement failed, and may have broken the transaction off. -/
  | executeFails (s : SessionState W) (write : W) (e : ε) (kept active : Bool) :
      SessionServes s (.execute write) (.error e)
        { s with pending := if kept then s.pending else [], active := s.active && active }
  | isActive (s : SessionState W) : SessionServes s .isActive (.ok s.active) s
  | commit (s : SessionState W) : s.Usable → SessionServes s .commit (.ok ()) s.commits
  /-- The commit did not arrive. -/
  | commitFails (s : SessionState W) (e : ε) (kept active : Bool) :
      SessionServes s .commit (.error e)
        { s with pending := if kept then s.pending else [], active := s.active && active }
  /-- The commit arrived, and its answer was lost. -/
  | commitLost (s : SessionState W) (e : ε) : s.Usable →
      SessionServes s .commit (.error e) s.commits
  | rollback (s : SessionState W) :
      SessionServes s .rollback (.ok ()) { s with pending := [], active := false }
  | rollbackFails (s : SessionState W) (e : ε) (kept : Bool) :
      SessionServes s .rollback (.error e)
        { s with pending := if kept then s.pending else [], active := false }
  | close (s : SessionState W) :
      SessionServes s .close (.ok ()) { s with pending := [], active := false, live := false }
  | closeFails (s : SessionState W) (e : ε) (live : Bool) :
      SessionServes s .close (.error e) { s with pending := [], active := false, live := live }

variable {s t : SessionState W}

/-! ## What each call does -/

/-- Only a commit commits: one transaction of what is pending when it succeeds, and at most that
one when it fails. -/
theorem SessionServes.committed {call : SessionCall W} {reply : Except ε (SessionReply call)}
    (h : SessionServes s call reply t) : t.committed = s.committed ∨
      call = .commit ∧ t.committed = s.committed ++ [s.pending] := by
  cases h with
  | commit => exact .inr ⟨rfl, rfl⟩
  | commitLost => exact .inr ⟨rfl, rfl⟩
  | _ => exact .inl rfl

/-- A rollback leaves what is committed. -/
theorem SessionServes.rollback_committed {reply : Except ε Unit}
    (h : SessionServes s .rollback reply t) : t.committed = s.committed := by
  cases h with
  | rollback => rfl
  | rollbackFails => rfl

/-- Closing abandons the transaction. -/
theorem SessionServes.close_committed {reply : Except ε Unit}
    (h : SessionServes s .close reply t) : t.committed = s.committed ∧ t.pending = [] ∧
      (reply = .ok () → t.live = false) := by
  cases h with
  | close => exact ⟨rfl, rfl, fun _ => rfl⟩
  | closeFails => exact ⟨rfl, rfl, fun hok => by cases hok⟩

/-! ## Blocks -/

/-- What a block does with the session. -/
inductive BlockCall (W : Type) where
  | execute (write : W)
  | commit
  | rollback

/-- A block that has a session to itself. -/
abbrev SessionBlock (W ε α : Type) := Program (BlockCall W) (fun _ => Unit) ε α

variable {Op : Type} {Reply : Op → Type}

/-- The methods of the session, for a program that can ask it. -/
def sessionMethod (ask : (call : SessionCall W) → Program Op Reply ε (SessionReply call)) :
    BlockCall W → Program Op Reply ε Unit
  | .execute write => ask (.execute write)
  | .commit => ask .commit
  | .rollback => ask .rollback

/-- Writes, whose first error ends the block. -/
def executeAll : List W → SessionBlock W ε Unit
  | [] => pure ()
  | write :: writes => do
      perform (BlockCall.execute write)
      executeAll writes

/-- Nothing is committed, and the writes are pending when the block returns. -/
theorem exec_executeAll {σ : Type} (session : σ → SessionState W)
    {serves : σ → BlockCall W → Except ε Unit → σ → Prop}
    (hserves : ∀ s write reply t, serves s (.execute write) reply t →
      SessionServes (session s) (.execute write) reply (session t))
    {writes : List W} {s t : σ} {result : Except ε Unit}
    (h : Exec serves (executeAll writes) s result t) :
    (session t).committed = (session s).committed ∧ ∀ a, result = .ok a →
      (session t).pending = (session s).pending ++ writes ∧
        ((session s).active = true → (session t).active = true) := by
  induction writes generalizing s with
  | nil =>
      obtain ⟨rfl, rfl⟩ := exec_done.mp h
      exact ⟨rfl, fun _ _ => ⟨(List.append_nil _).symm, id⟩⟩
  | cons write writes ih =>
      rcases exec_bind.mp h with ⟨e, hwrite, rfl⟩ | ⟨_, u, hwrite, hrest⟩
      · refine ⟨?_, fun a ha => by cases ha⟩
        exact (hserves _ _ _ _ (exec_perform.mp hwrite)).committed.resolve_right (by simp)
      · obtain ⟨hsame, hok⟩ := ih hrest
        have hexecute := hserves _ _ _ _ (exec_perform.mp hwrite)
        generalize session u = v at hexecute hsame hok
        cases hexecute with
        | execute _ husable =>
            refine ⟨hsame, fun a ha => ?_⟩
            obtain ⟨hpending, hactive⟩ := hok a ha
            exact ⟨by simpa using hpending, fun _ => hactive rfl⟩

end ProdkitStorage.Database
