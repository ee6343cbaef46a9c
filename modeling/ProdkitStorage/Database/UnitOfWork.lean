import ProdkitStorage.Database.SessionTransactions

/-!
# Units of work

`database/uow.py`.  The block of a `with` statement is a program that writes, commits and rolls
back as it likes; `__enter__` and `__exit__` are programs around it.  They call a session, which
may fail at every call.

`Since` and `Batches` say what the history of a block's calls should have committed: each commit
that succeeded, and some that failed, one transaction with the writes since the one before it.
-/

namespace ProdkitStorage.Database.UnitOfWork

open ProdkitStorage.Foundation
open ProdkitStorage.Foundation.Program

variable {W ε α : Type}

/-! ## The unit of work -/

/-- What the unit of work calls: its factory and its session, and its own attribute. -/
inductive Call (W : Type) where
  | session (call : SessionCall W)
  /-- `self._finished`. -/
  | finished
  | setFinished (value : Bool)

/-- What a call returns. -/
abbrev Reply {W : Type} : Call W → Type
  | .session op => SessionReply op
  | .finished => Bool
  | .setFinished _ => Unit

/-- The database, the session and the attribute. -/
structure Store (W : Type) extends SessionState W where
  finished : Bool

/-- How the calls may be answered. -/
inductive Serves : Store W → (call : Call W) → Except ε (Reply call) → Store W → Prop where
  | session {s : Store W} {call : SessionCall W} {reply : Except ε (SessionReply call)}
      {t : SessionState W} : SessionServes s.toSessionState call reply t →
      Serves s (.session call) reply { s with toSessionState := t }
  | finished (s : Store W) : Serves s .finished (.ok s.finished) s
  | setFinished (s : Store W) (value : Bool) :
      Serves s (.setFinished value) (.ok ()) { s with finished := value }

/-- What a block does. -/
inductive UnitCall (W : Type) where
  /-- A method of `uow.session`. -/
  | session (call : BlockCall W)
  /-- `uow.commit()`. -/
  | commit
  /-- `uow.rollback()`. -/
  | rollback

/-- A program that makes calls. -/
abbrev Code (W ε α : Type) := Program (Call W) Reply ε α

/-- A block. -/
abbrev Block (W ε α : Type) := Program (UnitCall W) (fun _ => Unit) ε α

/-- One call of the session. -/
def ask (call : SessionCall W) : Code W ε (SessionReply call) := perform (Call.session call)

/-- `self._finished = value`. -/
def setFinished (value : Bool) : Code W ε Unit := perform (Call.setFinished value)

/-- The methods of the unit of work, and of its session. -/
def method : UnitCall W → Code W ε Unit
  | .session op => sessionMethod ask op
  | .commit => do
      ask .commit
      setFinished true
  | .rollback => do
      ask .rollback
      setFinished true

/-- `__enter__`.  `isException` says whether an error is an `Exception`. -/
def enter (isException : ε → Bool) : Code W ε Unit := do
  setFinished false
  ask .make
  (ask (.begin_ false)).andThen fun begun =>
    match begun with
    | .ok _ => .done (.ok ())
    | .error e =>
        if isException e then
          (ask .close).andThen fun closed =>
            match closed with
            | .ok _ => .done (.error e)
            | .error e' => .done (.error e')
        else .done (.error e)

/-- `__exit__`.  `raised` says that the block raised. -/
def exit_ (raised : Bool) : Code W ε Unit := do
  let finished ← perform Call.finished
  (if raised || !finished then ask .rollback else pure ()).andThen fun rolledBack =>
    (ask .close).andThen fun closed =>
      match closed with
      | .ok _ => .done rolledBack
      | .error e => .done (.error e)

/-- `with uow: block`. -/
def withUnit (isException : ε → Bool) (block : Block W ε α) : Code W ε α :=
  (enter isException).andThen fun entered =>
    match entered with
    | .error e => .done (.error e)
    | .ok _ => (block.interp method).andThen fun result =>
        (exit_ (match result with | .ok _ => false | .error _ => true)).andThen fun left =>
          match left with
          | .ok _ => .done result
          | .error e => .done (.error e)

/-! ## What each part does -/

/-- The unit of work at the begin of its block. -/
def begun (committed : List (List W)) : Store W := ⟨.fresh committed false, false⟩

theorem ensures_ask {call : SessionCall W} {Q : Except ε (SessionReply call) → Store W → Prop}
    {s : Store W} : Ensures Serves (ask call) Q s ↔ ∀ reply t,
      SessionServes s.toSessionState call reply t → Q reply { s with toSessionState := t } := by
  rw [ask, ensures_perform]
  constructor
  · exact fun h reply t hserves => h reply _ (.session hserves)
  · intro h reply t hserves
    cases hserves with
    | session hserves => exact h reply _ hserves

theorem ensures_setFinished {value : Bool} {Q : Except ε Unit → Store W → Prop} {s : Store W} :
    Ensures Serves (setFinished value) Q s ↔ Q (.ok ()) { s with finished := value } := by
  rw [setFinished, ensures_perform]
  constructor
  · exact fun h => h _ _ (.setFinished s value)
  · intro h reply t hserves
    cases hserves
    exact h

/-- After `__enter__`: a new session with nothing pending, or an error.  Nothing is committed. -/
def Entered (s : Store W) : Except ε Unit → Store W → Prop
  | .ok _, t => t = begun s.committed
  | .error _, t => t.committed = s.committed

theorem ensures_enter (isException : ε → Bool) (s : Store W) :
    Ensures Serves (enter isException) (Entered s) s := by
  rw [enter, ensures_bind, ensures_setFinished]
  show Ensures _ _ _ _
  rw [ensures_bind, ensures_ask]
  intro reply t hmade
  cases hmade with
  | makeFails e => exact rfl
  | make =>
      show Ensures _ _ _ _
      rw [ensures_andThen, ensures_ask]
      intro reply t hbegun
      cases hbegun with
      | begin_ => exact ensures_done.mpr rfl
      | beginFails _ e =>
          simp only
          split
          · rw [ensures_andThen, ensures_ask]
            intro reply t hclosed
            have hsame := hclosed.close_committed.1
            cases reply with
            | ok _ => exact ensures_done.mpr hsame
            | error e' => exact ensures_done.mpr hsame
          · exact ensures_done.mpr rfl

/-- After `__exit__`: nothing more is committed, and the session is closed unless closing raised. -/
def Left (s : Store W) : Except ε Unit → Store W → Prop
  | .ok _, t => t.committed = s.committed ∧ t.pending = [] ∧ t.live = false
  | .error _, t => t.committed = s.committed ∧ t.pending = []

theorem ensures_close {s t : Store W} (hsame : t.committed = s.committed)
    (rolledBack : Except ε Unit) :
    Ensures Serves ((ask .close).andThen fun closed =>
      match closed with
      | .ok _ => .done rolledBack
      | .error e => .done (.error e)) (Left s) t := by
  rw [ensures_andThen, ensures_ask]
  intro reply u hclosed
  obtain ⟨hcommitted, hpending, hlive⟩ := hclosed.close_committed
  cases reply with
  | ok _ =>
      refine ensures_done.mpr ?_
      cases rolledBack with
      | ok _ => exact ⟨hcommitted.trans hsame, hpending, hlive rfl⟩
      | error e => exact ⟨hcommitted.trans hsame, hpending⟩
  | error e => exact ensures_done.mpr ⟨hcommitted.trans hsame, hpending⟩

theorem ensures_exit (raised : Bool) (s : Store W) :
    Ensures (ε := ε) Serves (exit_ raised) (Left s) s := by
  rw [exit_, ensures_bind, ensures_perform]
  intro reply t hread
  cases hread
  show Ensures _ _ _ _
  rw [ensures_andThen]
  split
  · rw [ensures_ask]
    intro reply t hrolledBack
    exact ensures_close hrolledBack.rollback_committed _
  · exact ensures_done.mpr (ensures_close rfl _)

/-- Entering failed, or the block ended in some state and nothing was committed after it. -/
theorem exec_withUnit {isException : ε → Bool} {block : Block W ε α} {s t : Store W}
    {outcome : Except ε α} (h : Exec Serves (withUnit isException block) s outcome t) :
    ((∃ e, outcome = .error e) ∧ t.committed = s.committed) ∨
      ∃ result u, Exec Serves (block.interp method) (begun s.committed) result u ∧
        t.committed = u.committed ∧ t.pending = [] ∧
        (∀ a, outcome = .ok a → result = .ok a ∧ t.live = false) := by
  obtain ⟨entered, u, henter, hrest⟩ := exec_andThen.mp h
  have hentered := ensures_enter isException s entered u henter
  cases entered with
  | error e =>
      obtain ⟨rfl, rfl⟩ := exec_done.mp hrest
      exact .inl ⟨⟨e, rfl⟩, hentered⟩
  | ok a =>
      obtain rfl : u = begun s.committed := hentered
      obtain ⟨result, v, hblock, hexit⟩ := exec_andThen.mp hrest
      obtain ⟨left, w, hleave, hend⟩ := exec_andThen.mp hexit
      have hleft := ensures_exit _ v left w hleave
      refine .inr ⟨result, v, hblock, ?_⟩
      cases left with
      | ok _ =>
          obtain ⟨rfl, rfl⟩ := exec_done.mp hend
          exact ⟨hleft.1, hleft.2.1, fun a ha => ⟨ha, hleft.2.2⟩⟩
      | error e =>
          obtain ⟨rfl, rfl⟩ := exec_done.mp hend
          exact ⟨hleft.1, hleft.2, fun a ha => by cases ha⟩

/-! ## The history of a block -/

/-- A call of a block and its answer. -/
abbrev Event (W ε : Type) := Answered (UnitCall W) (fun _ => Unit) ε

/-- The call commits. -/
def UnitCall.commits : UnitCall W → Bool
  | .commit => true
  | .session .commit => true
  | _ => false

/-- The call writes. -/
def UnitCall.writes : UnitCall W → Bool
  | .session (.execute _) => true
  | _ => false

/-- The calls that were answered without an error. -/
def succeeded (event : Event W ε) : Bool := event.reply.isOk

/-- The writes of a history, the newest first. -/
def written : List (Event W ε) → List W
  | ⟨.session (.execute write), .ok _⟩ :: older => written older ++ [write]
  | _ :: older => written older
  | [] => []

/-- The transaction of a history began there: at the begin of the block, with a commit or a
rollback, or with a call that failed and broke it off. -/
def Begins : List (Event W ε) → Prop
  | [] => True
  | event :: _ => event.op.writes = false ∨ succeeded event = false

/-- The writes of the open transaction. -/
def Since (history : List (Event W ε)) (writes : List W) : Prop :=
  ∃ during before, history = during ++ before ∧ Begins before ∧ written during = writes ∧
    ∀ event ∈ during, event.op.writes = true ∨ succeeded event = false

/-- The transactions of a history: one for each commit that succeeded, and at most one for each
commit that failed, each with the writes since its begin. -/
inductive Batches : List (Event W ε) → List (List W) → Prop where
  | nil : Batches [] []
  | commit {event : Event W ε} {history : List (Event W ε)} {writes : List W}
      {batches : List (List W)} : event.op.commits = true → Since history writes →
      Batches history batches → Batches (event :: history) (batches ++ [writes])
  | other {event : Event W ε} {history : List (Event W ε)} {batches : List (List W)} :
      ¬(event.op.commits = true ∧ succeeded event = true) →
      Batches history batches → Batches (event :: history) batches

theorem written_failed (call : UnitCall W) (e : ε) (history : List (Event W ε)) :
    written (⟨call, .error e⟩ :: history) = written history := by
  cases call with
  | session op => cases op <;> rfl
  | commit => rfl
  | rollback => rfl

theorem Since.executed {history : List (Event W ε)} {writes : List W} (h : Since history writes)
    (write : W) : Since (⟨.session (.execute write), .ok ()⟩ :: history) (writes ++ [write]) := by
  obtain ⟨during, before, rfl, hbegins, rfl, hduring⟩ := h
  exact ⟨_ :: during, before, rfl, hbegins, rfl, List.forall_mem_cons.mpr ⟨.inl rfl, hduring⟩⟩

theorem since_begins {history : List (Event W ε)} (h : Begins history) : Since history [] :=
  ⟨[], history, rfl, h, rfl, fun _ hevent => (nomatch hevent)⟩

/-- A call that fails has kept the writes, or has broken the transaction off. -/
theorem Since.failed {history : List (Event W ε)} {writes : List W} (h : Since history writes)
    (call : UnitCall W) (e : ε) (kept : Bool) :
    Since (⟨call, .error e⟩ :: history) (if kept then writes else []) := by
  cases kept with
  | false => exact since_begins (.inr rfl)
  | true =>
      obtain ⟨during, before, rfl, hbegins, rfl, hduring⟩ := h
      exact ⟨_ :: during, before, rfl, hbegins, written_failed call e during,
        List.forall_mem_cons.mpr ⟨.inr rfl, hduring⟩⟩

/-- What a call of a block does to the transactions of its session. -/
def Effect (call : UnitCall W) (s : Store W) : Except ε Unit → Store W → Prop
  | .ok _, t =>
      (∃ write, call = .session (.execute write) ∧ t.committed = s.committed ∧
        t.pending = s.pending ++ [write]) ∨
      (call.writes = false ∧ t.pending = [] ∧
        t.committed = if call.commits then s.committed ++ [s.pending] else s.committed)
  | .error _, t => (∃ kept : Bool, t.pending = if kept then s.pending else []) ∧
      (t.committed = s.committed ∨
        call.commits = true ∧ t.committed = s.committed ++ [s.pending])

theorem ensures_method (call : UnitCall W) (s : Store W) :
    Ensures (ε := ε) Serves (method call) (Effect call s) s := by
  have hcommit : ∀ reply t, SessionServes (ε := ε) s.toSessionState .commit reply t →
      ∀ call : UnitCall W, call.writes = false → call.commits = true →
        Effect call s reply { s with toSessionState := t } := by
    intro reply t hserves call hwrites hcommits
    cases hserves with
    | commit husable => exact .inr ⟨hwrites, rfl, by rw [hcommits]; rfl⟩
    | commitFails e kept active => exact ⟨⟨kept, rfl⟩, .inl rfl⟩
    | commitLost e husable => exact ⟨⟨false, rfl⟩, .inr ⟨hcommits, rfl⟩⟩
  have hrollback : ∀ reply t, SessionServes (ε := ε) s.toSessionState .rollback reply t →
      ∀ call : UnitCall W, call.writes = false → call.commits = false →
        Effect call s reply { s with toSessionState := t } := by
    intro reply t hserves call hwrites hcommits
    cases hserves with
    | rollback => exact .inr ⟨hwrites, rfl, by rw [hcommits]; rfl⟩
    | rollbackFails e kept => exact ⟨⟨kept, rfl⟩, .inl rfl⟩
  have hassign : ∀ (call : UnitCall W) (t : SessionState W),
      Effect (ε := ε) call s (.ok ()) { s with toSessionState := t } →
      Effect (ε := ε) call s (.ok ()) ⟨t, true⟩ := fun _ _ h => h
  cases call with
  | session call =>
      cases call with
      | execute write =>
          show Ensures Serves (ask (.execute write)) _ s
          refine ensures_ask.mpr fun reply t hserves => ?_
          cases hserves with
          | execute _ husable => exact .inl ⟨write, rfl, rfl, rfl⟩
          | executeFails _ e kept active => exact ⟨⟨kept, rfl⟩, .inl rfl⟩
      | commit =>
          show Ensures Serves (ask .commit) _ s
          exact ensures_ask.mpr fun reply t hserves =>
            hcommit reply t hserves (.session .commit) rfl rfl
      | rollback =>
          show Ensures Serves (ask .rollback) _ s
          exact ensures_ask.mpr fun reply t hserves =>
            hrollback reply t hserves (.session .rollback) rfl rfl
  | commit =>
      rw [method, ensures_bind, ensures_ask]
      intro reply t hserves
      have heffect := hcommit reply t hserves .commit rfl rfl
      cases reply with
      | ok _ => exact ensures_setFinished.mpr (hassign _ t heffect)
      | error e => exact heffect
  | rollback =>
      rw [method, ensures_bind, ensures_ask]
      intro reply t hserves
      have heffect := hrollback reply t hserves .rollback rfl rfl
      cases reply with
      | ok _ => exact ensures_setFinished.mpr (hassign _ t heffect)
      | error e => exact heffect

/-- The service that a block calls. -/
def Answers (s : Store W) (call : UnitCall W) (reply : Except ε Unit) (t : Store W) : Prop :=
  Exec Serves (method call) s reply t

/-- A block commits the transactions of its history. -/
theorem served_batches {s t : Store W} {history : List (Event W ε)} (hs : s.pending = [])
    (h : Served Answers s history t) :
    Since history t.pending ∧
      ∃ batches, Batches history batches ∧ t.committed = s.committed ++ batches := by
  induction h with
  | nil => exact ⟨by rw [hs]; exact since_begins trivial, [], .nil, (List.append_nil _).symm⟩
  | @cons history u v call reply _ hmethod ih =>
      obtain ⟨hsince, batches, hbatches, hcommitted⟩ := ih
      have heffect := ensures_method call u reply v hmethod
      have hcommit : call.commits = true → v.committed = u.committed ++ [u.pending] →
          ∃ batches, Batches (⟨call, reply⟩ :: history) batches ∧
            v.committed = s.committed ++ batches := fun hcommits hv =>
        ⟨_, .commit hcommits hsince hbatches, by rw [hv, hcommitted, List.append_assoc]⟩
      cases reply with
      | ok _ =>
          rcases heffect with ⟨write, rfl, hsame, hpending⟩ | ⟨hwrites, hpending, hv⟩
          · rw [hpending]
            exact ⟨hsince.executed write, batches, .other (by simp [UnitCall.commits]) hbatches,
              hsame.trans hcommitted⟩
          · rw [hpending]
            refine ⟨since_begins (.inl hwrites), ?_⟩
            cases hcommits : call.commits with
            | true => exact hcommit hcommits (by rw [hv, hcommits, if_pos rfl])
            | false =>
                rw [hcommits, if_neg Bool.false_ne_true] at hv
                exact ⟨batches, .other (by simp [hcommits]) hbatches, hv.trans hcommitted⟩
      | error e =>
          obtain ⟨⟨kept, hpending⟩, hv⟩ := heffect
          rw [hpending]
          refine ⟨hsince.failed call e kept, ?_⟩
          rcases hv with hsame | ⟨hcommits, hv⟩
          · exact ⟨batches, .other (fun h => by cases h.2) hbatches, hsame.trans hcommitted⟩
          · exact hcommit hcommits hv

/-- A block and its history. -/
theorem exec_block {block : Block W ε α} {s u : Store W} {result : Except ε α}
    (hs : s.pending = []) (h : Exec Serves (block.interp method) s result u) :
    ∃ history batches, Runs block history result ∧ Served Answers s history u ∧
      Batches history batches ∧ u.committed = s.committed ++ batches := by
  obtain ⟨history, hruns, hserved⟩ := (exec_interp.mp h).runs
  obtain ⟨-, batches, hbatches, hcommitted⟩ := served_batches hs hserved
  exact ⟨history, batches, hruns, hserved, hbatches, hcommitted⟩

/-- Without a commit there is no transaction. -/
theorem Batches.eq_nil {history : List (Event W ε)} {batches : List (List W)}
    (h : Batches history batches) (hnone : ∀ event ∈ history, event.op.commits = false) :
    batches = [] := by
  induction h with
  | nil => rfl
  | commit hcommits => simp [hnone _ List.mem_cons_self] at hcommits
  | other _ _ ih => exact ih fun event hevent => hnone event (List.mem_cons_of_mem _ hevent)

/-! ## Writes with one commit -/

/-- Writes, and one commit after them. -/
def writeAll (writes : List W) : Block W ε Unit := do
  (executeAll writes).interp fun call => perform (UnitCall.session call)
  perform UnitCall.commit

/-- The writes become durable together or not at all, and together when the block returns. -/
theorem exec_writeAll {writes : List W} {s t : Store W} {result : Except ε Unit}
    (h : Exec Serves ((writeAll writes).interp method) s result t) :
    (t.committed = s.committed ∧ ∃ e, result = .error e) ∨
      t.committed = s.committed ++ [s.pending ++ writes] := by
  rw [exec_interp] at h
  have hwrites : ∀ {outcome : Except ε Unit} {u : Store W},
      Exec (fun s call reply t => Exec Serves (method call) s reply t)
        ((executeAll writes).interp fun call => perform (UnitCall.session call)) s outcome u →
      u.committed = s.committed ∧ (∀ a, outcome = .ok a → u.pending = s.pending ++ writes) := by
    intro outcome u h
    rw [exec_interp] at h
    obtain ⟨hsame, hok⟩ := exec_executeAll Store.toSessionState
      (fun s write reply t hmethod => by
        have hserves : Serves s (.session (.execute write)) reply t :=
          exec_perform.mp (exec_perform.mp hmethod)
        cases hserves with
        | session hexecute => exact hexecute) h
    exact ⟨hsame, fun a ha => (hok a ha).1⟩
  rcases exec_bind.mp h with ⟨e, hfailed, rfl⟩ | ⟨a, u, hwritten, hcommit⟩
  · exact .inl ⟨(hwrites hfailed).1, e, rfl⟩
  · obtain ⟨hsame, hpending⟩ := hwrites hwritten
    have heffect := ensures_method _ u result t (exec_perform.mp hcommit)
    cases result with
    | ok _ =>
        rcases heffect with ⟨write, hwrite, -⟩ | ⟨-, -, hcommitted⟩
        · cases hwrite
        · exact .inr (by rw [hcommitted, hpending a rfl, hsame]; rfl)
    | error e =>
        rcases heffect.2 with hnone | ⟨-, hcommitted⟩
        · exact .inl ⟨hnone.trans hsame, e, rfl⟩
        · exact .inr (by rw [hcommitted, hpending a rfl, hsame])

/-! ## A unit of work -/

/-- What a unit of work with this block commits.  Its block never began, or the block went through
a history of calls on a fresh session, and the transactions of that history are committed. -/
def Commits (block : Block W ε α) (s : Store W) (outcome : Except ε α) (t : Store W) : Prop :=
  ((∃ e, outcome = .error e) ∧ t.committed = s.committed) ∨
    ∃ result history u batches, Runs block history result ∧
      Served Answers (begun s.committed) history u ∧ t.committed = u.committed ∧
      Batches history batches ∧ t.committed = s.committed ++ batches ∧
      ∀ a, outcome = .ok a → result = .ok a

end ProdkitStorage.Database.UnitOfWork
