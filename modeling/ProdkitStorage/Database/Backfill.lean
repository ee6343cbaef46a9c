import Mathlib.Algebra.BigOperators.Group.List.Basic
import Mathlib.Algebra.Order.Ring.Int
import ProdkitStorage.Python.Error

/-!
# Resumable backfills

`database/backfill.py`.  The callbacks of the application act on a database state
of any type, inside the transaction of one batch; the checkpoint is part of that
state.  A transaction commits the whole batch or nothing of it.

An invocation may be ended by an exception at any point of any batch.  Which one
strikes is no choice of the code, so the loop reads it from a *script*, one
entry for each batch it starts; when the script ends the process is gone.  The
batches an invocation committed are recorded beside its outcome.

`wholeBatches k` is the straight loop: `k` batches, one after the other, nothing
in between.  The crashing and restarting runs are compared with it.
-/

namespace ProdkitStorage.Database

open ProdkitStorage.Python

/-- `BackfillBatch`. -/
structure BackfillBatch (Cursor : Type) where
  nextCursor : Option Cursor
  processed : Int
  done : Bool := false
deriving DecidableEq, Repr

/-- `BackfillRun`. -/
structure BackfillRun (Cursor : Type) where
  batches : Int
  processed : Int
  checkpoint : Option Cursor
  completed : Bool
deriving DecidableEq, Repr

/-- The callbacks of the application, on a database state `Db`. -/
structure Job (Db Cursor : Type) where
  loadCheckpoint : Db → Except PyError (Option Cursor × Db)
  processBatch : Db → Option Cursor → Int → Except PyError (BackfillBatch Cursor × Db)
  saveCheckpoint : Db → Option Cursor → Except PyError Db

/-- Loading returns what was saved last. -/
def Job.LoadsSaved {Db Cursor : Type} (job : Job Db Cursor) : Prop :=
  ∀ db cursor saved, job.saveCheckpoint db cursor = .ok saved →
    ∃ work, job.loadCheckpoint saved = .ok (cursor, work)

/-- Where an exception strikes a batch.  A commit that raises may have taken effect. -/
inductive Point where
  | begin_
  | load
  | process
  | validate
  | save
  | commit (applied : Bool)
deriving DecidableEq, Repr

/-- An exception from outside. -/
structure Fault where
  point : Point
  error : PyError

/-- Raise the fault that strikes at this point. -/
def raiseAt (fault : Option Fault) (point : Point) : Except PyError Unit :=
  match fault with
  | none => .ok ()
  | some fault => if fault.point = point then .error fault.error else .ok ()

variable {Db Cursor : Type}

/-! ## Counters -/

/-- The counters at the start of an invocation. -/
def BackfillRun.start : BackfillRun Cursor := ⟨0, 0, none, false⟩

/-- The counters after a batch. -/
def BackfillRun.add (run : BackfillRun Cursor) (batch : BackfillBatch Cursor) :
    BackfillRun Cursor where
  batches := run.batches + 1
  processed := run.processed + batch.processed
  checkpoint := batch.nextCursor
  completed := batch.done

/-- The counters after a list of batches. -/
def BackfillRun.addAll (run : BackfillRun Cursor) (batches : List (BackfillBatch Cursor)) :
    BackfillRun Cursor :=
  batches.foldl BackfillRun.add run

@[simp] theorem addAll_nil (run : BackfillRun Cursor) : run.addAll [] = run := rfl

@[simp] theorem addAll_cons (run : BackfillRun Cursor) (batch : BackfillBatch Cursor)
    (batches : List (BackfillBatch Cursor)) :
    run.addAll (batch :: batches) = (run.add batch).addAll batches := rfl

theorem addAll_batches (run : BackfillRun Cursor) (batches : List (BackfillBatch Cursor)) :
    (run.addAll batches).batches = run.batches + batches.length := by
  induction batches generalizing run with
  | nil => simp
  | cons batch batches ih =>
      rw [addAll_cons, ih, List.length_cons, Int.natCast_succ, Int.add_comm (batches.length : Int)]
      exact Int.add_assoc ..

theorem addAll_processed (run : BackfillRun Cursor) (batches : List (BackfillBatch Cursor)) :
    (run.addAll batches).processed =
      run.processed + (batches.map BackfillBatch.processed).sum := by
  induction batches generalizing run with
  | nil => simp
  | cons batch batches ih =>
      rw [addAll_cons, ih, List.map_cons, List.sum_cons]
      exact Int.add_assoc ..

variable [DecidableEq Cursor]

/-! ## The loop -/

/-- `_validate_options`. -/
def validateOptions (batchSize : Int) (maxBatches : Option Int) : Except PyError Unit :=
  if batchSize < 1 then .error (.valueError "batch_size must be positive")
  else match maxBatches with
    | none => .ok ()
    | some maxBatches =>
        if maxBatches < 1 then .error (.valueError "max_batches must be positive when provided")
        else .ok ()

/-- `_validate_batch`. -/
def validateBatch (batch : BackfillBatch Cursor) (checkpoint : Option Cursor) :
    Except PyError Unit :=
  if batch.processed < 0 then
    .error (.valueError "backfill batch processed count must not be negative")
  else if !batch.done && batch.processed == 0 && batch.nextCursor == checkpoint then
    .error (.runtimeError "backfill batch made no progress")
  else .ok ()

/-- The body of the `with` statement: the batch, and the state to commit. -/
def batchBody (job : Job Db Cursor) (batchSize : Int) (fault : Option Fault) (db : Db) :
    Except PyError (BackfillBatch Cursor × Db) := do
  raiseAt fault .begin_
  raiseAt fault .load
  let (checkpoint, work) ← job.loadCheckpoint db
  raiseAt fault .process
  let (batch, work) ← job.processBatch work checkpoint batchSize
  raiseAt fault .validate
  validateBatch batch checkpoint
  raiseAt fault .save
  let work ← job.saveCheckpoint work batch.nextCursor
  return (batch, work)

/-- What the transaction of one batch left. -/
structure Transaction (Db Cursor : Type) where
  outcome : Except PyError (BackfillBatch Cursor)
  db : Db
  /-- The batch, when it was committed. -/
  committed : List (BackfillBatch Cursor)

/-- The `with` statement: an exception in the body rolls it back, and so does a commit that
raises without effect. -/
def batchTransaction (job : Job Db Cursor) (batchSize : Int) (fault : Option Fault) (db : Db) :
    Transaction Db Cursor :=
  match batchBody job batchSize fault db with
  | .error error => ⟨.error error, db, []⟩
  | .ok (batch, work) =>
      match fault with
      | some ⟨.commit true, error⟩ => ⟨.error error, work, [batch]⟩
      | some ⟨.commit false, error⟩ => ⟨.error error, db, []⟩
      | _ => ⟨.ok batch, work, [batch]⟩

/-- An invocation: its outcome, `none` when the process was gone before there was one, the
committed state after it and the batches it committed. -/
structure Invocation (Db Cursor : Type) where
  outcome : Option (Except PyError (BackfillRun Cursor))
  db : Db
  committed : List (BackfillBatch Cursor)

/-- The condition of the `while` statement. -/
def continues (maxBatches : Option Int) (batches : Int) : Bool :=
  match maxBatches with
  | none => true
  | some maxBatches => decide (batches < maxBatches)

/-- The `while` statement, from the counters of the batches before. -/
def backfillLoop (job : Job Db Cursor) (batchSize : Int) (maxBatches : Option Int) :
    List (Option Fault) → BackfillRun Cursor → Db → Invocation Db Cursor
  | [], run, db => ⟨if continues maxBatches run.batches then none else some (.ok run), db, []⟩
  | fault :: script, run, db =>
      if continues maxBatches run.batches then
        let transaction := batchTransaction job batchSize fault db
        match transaction.outcome with
        | .error error => ⟨some (.error error), transaction.db, transaction.committed⟩
        | .ok batch =>
            if batch.done then
              ⟨some (.ok (run.add batch)), transaction.db, transaction.committed⟩
            else
              let rest :=
                backfillLoop job batchSize maxBatches script (run.add batch) transaction.db
              { rest with committed := transaction.committed ++ rest.committed }
      else ⟨some (.ok run), db, []⟩

/-- `run_batched_backfill_sync`, and `run_batched_backfill_async`, whose body is the same. -/
def runBatchedBackfill (job : Job Db Cursor) (batchSize : Int) (maxBatches : Option Int)
    (script : List (Option Fault)) (db : Db) : Invocation Db Cursor :=
  match validateOptions batchSize maxBatches with
  | .error error => ⟨some (.error error), db, []⟩
  | .ok () => backfillLoop job batchSize maxBatches script .start db

/-- One invocation after the other, each on the state the one before committed. -/
def invocations (job : Job Db Cursor) (batchSize : Int) :
    List (Option Int × List (Option Fault)) → Db → List (Invocation Db Cursor)
  | [], _ => []
  | (maxBatches, script) :: calls, db =>
      let invocation := runBatchedBackfill job batchSize maxBatches script db
      invocation :: invocations job batchSize calls invocation.db

/-- The state the last of the invocations committed. -/
def committedState (db : Db) (runs : List (Invocation Db Cursor)) : Db :=
  runs.foldl (fun _ invocation => invocation.db) db

/-! ## The straight loop -/

/-- `k` whole batches, without an interruption: the batches and the state after them. -/
def wholeBatches (job : Job Db Cursor) (batchSize : Int) :
    Nat → Db → Except PyError (List (BackfillBatch Cursor) × Db)
  | 0, db => .ok ([], db)
  | k + 1, db => do
      let (batch, db) ← batchBody job batchSize none db
      let (batches, db) ← wholeBatches job batchSize k db
      return (batch :: batches, db)

/-- The straight loop of `j + k` batches is the one of `j` batches and then the one of `k`. -/
theorem wholeBatches_append {job : Job Db Cursor} {batchSize : Int}
    {first second : List (BackfillBatch Cursor)} {db db' db'' : Db}
    (hfirst : wholeBatches job batchSize first.length db = .ok (first, db'))
    (hsecond : wholeBatches job batchSize second.length db' = .ok (second, db'')) :
    wholeBatches job batchSize (first ++ second).length db = .ok (first ++ second, db'') := by
  induction first generalizing db with
  | nil =>
      obtain rfl : db = db' := by simpa [wholeBatches] using hfirst
      exact hsecond
  | cons batch first ih =>
      obtain ⟨⟨batch', work⟩, hbody, hrest⟩ := bind_eq_ok.mp hfirst
      obtain ⟨⟨batches, work'⟩, hbatches, hrest⟩ := bind_eq_ok.mp hrest
      simp only [pure_eq_ok, Except.ok.injEq, Prod.mk.injEq, List.cons.injEq] at hrest
      obtain ⟨⟨rfl, rfl⟩, rfl⟩ := hrest
      have htail := ih hbatches
      simp only [List.cons_append, List.length_cons, wholeBatches, hbody, ok_bind, htail,
        pure_eq_ok]

end ProdkitStorage.Database
