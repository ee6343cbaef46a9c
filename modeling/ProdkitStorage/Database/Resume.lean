import Mathlib.Data.List.Basic
import ProdkitStorage.Database.Backfill

/-!
# Interrupted backfills equal uninterrupted ones

A transaction commits a whole batch or leaves the state as it was, and a whole
batch depends on the committed state alone.  So a loop, wherever it is
interrupted, leaves what the straight loop leaves after the batches it
committed, and the next invocation goes on from there.
-/

namespace ProdkitStorage.Database

open ProdkitStorage.Python

variable {Db Cursor : Type} [DecidableEq Cursor]

/-! ## One batch -/

/-- A body that returns met no fault. -/
theorem batchBody_none {job : Job Db Cursor} {batchSize : Int} {fault : Option Fault} {db : Db}
    {result : BackfillBatch Cursor × Db} (h : batchBody job batchSize fault db = .ok result) :
    batchBody job batchSize none db = .ok result := by
  have hraise : ∀ point, raiseAt none point = .ok () := fun _ => rfl
  unfold batchBody at h ⊢
  obtain ⟨-, -, h⟩ := bind_eq_ok.mp h
  obtain ⟨-, -, h⟩ := bind_eq_ok.mp h
  obtain ⟨loaded, hload, h⟩ := bind_eq_ok.mp h
  obtain ⟨-, -, h⟩ := bind_eq_ok.mp h
  obtain ⟨batch, hprocess, h⟩ := bind_eq_ok.mp h
  obtain ⟨-, -, h⟩ := bind_eq_ok.mp h
  obtain ⟨_, hvalid, h⟩ := bind_eq_ok.mp h
  obtain ⟨-, -, h⟩ := bind_eq_ok.mp h
  obtain ⟨saved, hsave, h⟩ := bind_eq_ok.mp h
  simp only [hraise, ok_bind, hload, hprocess, hvalid, hsave]
  exact h

/-- A transaction leaves the state as it was, or commits the whole batch. -/
theorem batchTransaction_cases (job : Job Db Cursor) (batchSize : Int) (fault : Option Fault)
    (db : Db) :
    let transaction := batchTransaction job batchSize fault db
    ((∃ error, transaction.outcome = .error error) ∧ transaction.committed = [] ∧
        transaction.db = db) ∨
      ∃ batch, batchBody job batchSize none db = .ok (batch, transaction.db) ∧
        transaction.committed = [batch] ∧
        ((∃ error, transaction.outcome = .error error) ∨ transaction.outcome = .ok batch) := by
  unfold batchTransaction
  cases hbody : batchBody job batchSize fault db with
  | error error => exact .inl ⟨⟨error, rfl⟩, rfl, rfl⟩
  | ok result =>
      obtain ⟨batch, work⟩ := result
      have hwhole := batchBody_none hbody
      simp only
      split
      · exact .inr ⟨batch, hwhole, rfl, .inl ⟨_, rfl⟩⟩
      · exact .inl ⟨⟨_, rfl⟩, rfl, rfl⟩
      · exact .inr ⟨batch, hwhole, rfl, .inr rfl⟩

/-- Without a fault the transaction commits what the body made. -/
theorem batchTransaction_none {job : Job Db Cursor} {batchSize : Int} {db work : Db}
    {batch : BackfillBatch Cursor} (h : batchBody job batchSize none db = .ok (batch, work)) :
    batchTransaction job batchSize none db = ⟨.ok batch, work, [batch]⟩ := by
  simp [batchTransaction, h]

/-- A body saves the cursor of its batch, so loading returns that cursor. -/
theorem batchBody_checkpoint {job : Job Db Cursor} (hjob : job.LoadsSaved) {batchSize : Int}
    {db work : Db} {batch : BackfillBatch Cursor}
    (h : batchBody job batchSize none db = .ok (batch, work)) :
    ∃ loaded, job.loadCheckpoint work = .ok (batch.nextCursor, loaded) := by
  unfold batchBody at h
  obtain ⟨-, -, h⟩ := bind_eq_ok.mp h
  obtain ⟨-, -, h⟩ := bind_eq_ok.mp h
  obtain ⟨loaded, -, h⟩ := bind_eq_ok.mp h
  obtain ⟨-, -, h⟩ := bind_eq_ok.mp h
  obtain ⟨processed, -, h⟩ := bind_eq_ok.mp h
  obtain ⟨-, -, h⟩ := bind_eq_ok.mp h
  obtain ⟨-, -, h⟩ := bind_eq_ok.mp h
  obtain ⟨-, -, h⟩ := bind_eq_ok.mp h
  obtain ⟨saved, hsave, h⟩ := bind_eq_ok.mp h
  simp only [pure_eq_ok, Except.ok.injEq, Prod.mk.injEq] at h
  obtain ⟨rfl, rfl⟩ := h
  exact hjob _ _ _ hsave

theorem wholeBatches_checkpoint {job : Job Db Cursor} (hjob : job.LoadsSaved) {batchSize : Int}
    {batches : List (BackfillBatch Cursor)} {db work : Db} (hne : batches ≠ [])
    (h : wholeBatches job batchSize batches.length db = .ok (batches, work))
    (run : BackfillRun Cursor) :
    ∃ loaded, job.loadCheckpoint work = .ok ((run.addAll batches).checkpoint, loaded) := by
  induction batches generalizing db run with
  | nil => exact absurd rfl hne
  | cons batch batches ih =>
      obtain ⟨⟨batch', middle⟩, hbody, hrest⟩ := bind_eq_ok.mp h
      obtain ⟨⟨batches', work'⟩, hbatches, hrest⟩ := bind_eq_ok.mp hrest
      simp only [pure_eq_ok, Except.ok.injEq, Prod.mk.injEq, List.cons.injEq] at hrest
      obtain ⟨⟨rfl, rfl⟩, rfl⟩ := hrest
      cases hcase : batches' with
      | nil =>
          subst hcase
          obtain rfl : middle = work' := by simpa [wholeBatches] using hbatches
          exact batchBody_checkpoint hjob hbody
      | cons next rest => exact hcase ▸ ih (by simp [hcase]) hbatches (run.add batch')

/-! ## One invocation -/

/-- The loop leaves what the straight loop leaves after the batches it committed, and it
returns their counts. -/
theorem backfillLoop_whole (job : Job Db Cursor) (batchSize : Int) (maxBatches : Option Int)
    (script : List (Option Fault)) (run : BackfillRun Cursor) (db : Db) :
    let invocation := backfillLoop job batchSize maxBatches script run db
    wholeBatches job batchSize invocation.committed.length db =
        .ok (invocation.committed, invocation.db) ∧
      ∀ result, invocation.outcome = some (.ok result) →
        result = run.addAll invocation.committed := by
  induction script generalizing run db with
  | nil =>
      refine ⟨rfl, ?_⟩
      intro result h
      simp only [backfillLoop] at h
      split at h
      · cases h
      · exact (Except.ok.inj (Option.some.inj h)).symm
  | cons fault script ih =>
      rw [backfillLoop]
      split
      · have hcases := batchTransaction_cases job batchSize fault db
        generalize batchTransaction job batchSize fault db = transaction at hcases ⊢
        obtain ⟨outcome, work, committed⟩ := transaction
        rcases hcases with ⟨⟨error, rfl⟩, rfl, rfl⟩ | ⟨batch, hbody, rfl, hend⟩
        · exact ⟨rfl, by simp⟩
        · have hone : wholeBatches job batchSize 1 db = .ok ([batch], work) := by
            simp only at hbody
            simp [wholeBatches, hbody]
          rcases hend with ⟨error, rfl⟩ | rfl
          · exact ⟨hone, by simp⟩
          · simp only
            split
            · refine ⟨hone, ?_⟩
              intro result h
              simpa using h.symm
            · obtain ⟨hwhole, hcounts⟩ := ih (run.add batch) work
              refine ⟨wholeBatches_append hone hwhole, ?_⟩
              intro result h
              exact hcounts result h
      · refine ⟨rfl, ?_⟩
        intro result h
        simpa using h.symm

/-- An invocation leaves what the straight loop leaves after the batches it committed. -/
theorem runBatchedBackfill_whole (job : Job Db Cursor) (batchSize : Int) (maxBatches : Option Int)
    (script : List (Option Fault)) (db : Db) :
    let invocation := runBatchedBackfill job batchSize maxBatches script db
    wholeBatches job batchSize invocation.committed.length db =
        .ok (invocation.committed, invocation.db) ∧
      ∀ result, invocation.outcome = some (.ok result) →
        result = BackfillRun.start.addAll invocation.committed := by
  unfold runBatchedBackfill
  split
  · exact ⟨rfl, by simp⟩
  · exact backfillLoop_whole job batchSize maxBatches script .start db

/-- An invocation that returns has committed a batch. -/
theorem runBatchedBackfill_committed {job : Job Db Cursor} {batchSize : Int}
    {maxBatches : Option Int} {script : List (Option Fault)} {db : Db} {run : BackfillRun Cursor}
    (h : (runBatchedBackfill job batchSize maxBatches script db).outcome = some (.ok run)) :
    (runBatchedBackfill job batchSize maxBatches script db).committed ≠ [] := by
  unfold runBatchedBackfill at h ⊢
  split at h
  · cases h
  · rename_i hvalid
    have hgo : continues maxBatches (BackfillRun.start : BackfillRun Cursor).batches = true := by
      cases maxBatches with
      | none => rfl
      | some limit =>
          have hlimit : ¬limit < 1 := by
            intro hlt
            unfold validateOptions at hvalid
            split at hvalid
            · cases hvalid
            · simp [hlt] at hvalid
          simp only [continues, BackfillRun.start]
          exact decide_eq_true (by omega)
    cases script with
    | nil =>
        simp only [backfillLoop, hgo, if_true] at h
        cases h
    | cons fault script =>
        have hcases := batchTransaction_cases job batchSize fault db
        simp only [backfillLoop, hgo, if_true] at h ⊢
        generalize batchTransaction job batchSize fault db = transaction at hcases h ⊢
        obtain ⟨outcome, work, committed⟩ := transaction
        rcases hcases with ⟨⟨error, rfl⟩, -, -⟩ | ⟨batch, -, rfl, -⟩
        · cases h
        · simp only
          split
          · simp
          · split
            · simp
            · simp

/-- A loop that starts a batch does not look at the checkpoint of the batch before. -/
theorem backfillLoop_restart {job : Job Db Cursor} {batchSize : Int} {maxBatches : Option Int}
    {script : List (Option Fault)} {run run' : BackfillRun Cursor} {db : Db}
    (hcontinues : continues maxBatches run.batches = true) (hbatches : run.batches = run'.batches)
    (hprocessed : run.processed = run'.processed) :
    backfillLoop job batchSize maxBatches script run db =
      backfillLoop job batchSize maxBatches script run' db := by
  have hadd : ∀ batch, run.add batch = run'.add batch := by
    intro batch
    simp only [BackfillRun.add, hbatches, hprocessed]
  cases script with
  | nil =>
      rw [backfillLoop, backfillLoop, ← hbatches, if_pos hcontinues, if_pos hcontinues]
  | cons fault script =>
      simp only [backfillLoop, ← hbatches, if_pos hcontinues, hadd]

/-! ## A run and then another -/

/-- The counters of a run and of one that went on from it. -/
def BackfillRun.combine (earlier later : BackfillRun Cursor) : BackfillRun Cursor where
  batches := earlier.batches + later.batches
  processed := earlier.processed + later.processed
  checkpoint := later.checkpoint
  completed := later.completed

/-- The counters of earlier batches are carried along. -/
theorem backfillLoop_combine (job : Job Db Cursor) (batchSize b : Int)
    (script : List (Option Fault)) (earlier run : BackfillRun Cursor) (db : Db) :
    backfillLoop job batchSize (some (earlier.batches + b)) script (earlier.combine run) db =
      let later := backfillLoop job batchSize (some b) script run db
      { later with outcome := later.outcome.map (Except.map earlier.combine) } := by
  have hcontinues : ∀ run : BackfillRun Cursor,
      continues (some (earlier.batches + b)) (earlier.combine run).batches =
        continues (some b) run.batches := by
    intro run
    simp only [continues, BackfillRun.combine]
    exact decide_eq_decide.mpr (by omega)
  have hadd : ∀ (run : BackfillRun Cursor) (batch : BackfillBatch Cursor),
      (earlier.combine run).add batch = earlier.combine (run.add batch) := by
    intro run batch
    simp only [BackfillRun.add, BackfillRun.combine, Int.add_assoc]
  induction script generalizing run db with
  | nil =>
      simp only [backfillLoop, hcontinues]
      split
      · rfl
      · rfl
  | cons fault script ih =>
      simp only [backfillLoop, hcontinues]
      split
      · split
        · rfl
        · split
          · rw [hadd]
            rfl
          · rw [hadd, ih]
      · rfl

/-- A loop that stopped at its limit is the first part of one with a higher limit. -/
theorem backfillLoop_append {job : Job Db Cursor} {batchSize a b : Int}
    {first : List (Option Fault)} (second : List (Option Fault)) {run result : BackfillRun Cursor}
    {db : Db}
    (hlength : run.batches + first.length = a) (hb : 0 ≤ b)
    (houtcome : (backfillLoop job batchSize (some a) first run db).outcome = some (.ok result))
    (hcompleted : result.completed = false) :
    result.batches = a ∧
      backfillLoop job batchSize (some (a + b)) (first ++ second) run db =
        let before := backfillLoop job batchSize (some a) first run db
        let later := backfillLoop job batchSize (some (a + b)) second result before.db
        { later with committed := before.committed ++ later.committed } := by
  induction first generalizing run db with
  | nil =>
      have hstop : continues (some a) run.batches = false := by
        simp only [List.length_nil] at hlength
        simp only [continues, decide_eq_false_iff_not]
        omega
      simp only [backfillLoop, hstop] at houtcome
      obtain rfl := Except.ok.inj (Option.some.inj houtcome)
      exact ⟨by simpa using hlength, rfl⟩
  | cons fault first ih =>
      rw [List.length_cons] at hlength
      push_cast at hlength
      have hgo : continues (some a) run.batches = true := by
        simp only [continues, decide_eq_true_eq]
        omega
      have hgo' : continues (some (a + b)) run.batches = true := by
        simp only [continues, decide_eq_true_eq]
        omega
      simp only [List.cons_append, backfillLoop, hgo, hgo', if_true] at houtcome ⊢
      cases ht : (batchTransaction job batchSize fault db).outcome with
      | error error =>
          simp only [ht] at houtcome
          cases houtcome
      | ok batch =>
          simp only [ht] at houtcome ⊢
          cases hd : batch.done with
          | true =>
              simp only [hd, if_true] at houtcome
              obtain rfl := Except.ok.inj (Option.some.inj houtcome)
              simp [BackfillRun.add, hd] at hcompleted
          | false =>
              simp only [hd] at houtcome ⊢
              have hnext : (run.add batch).batches + first.length = a := by
                simp only [BackfillRun.add]
                omega
              obtain ⟨hbatches, hrest⟩ := ih hnext houtcome
              refine ⟨hbatches, ?_⟩
              simp only [Bool.false_eq_true, if_false, hrest, List.append_assoc]

/-- A run with `max_batches=a` that did not complete and then one with `max_batches=b` are one
run with `max_batches=a+b`. -/
theorem runBatchedBackfill_add {job : Job Db Cursor} {batchSize a b : Int} (hb : 1 ≤ b)
    {first second : List (Option Fault)} {db : Db} {result : BackfillRun Cursor}
    (hlength : (first.length : Int) = a)
    (houtcome : (runBatchedBackfill job batchSize (some a) first db).outcome = some (.ok result))
    (hcompleted : result.completed = false) :
    let before := runBatchedBackfill job batchSize (some a) first db
    let later := runBatchedBackfill job batchSize (some b) second before.db
    runBatchedBackfill job batchSize (some (a + b)) (first ++ second) db =
      ⟨later.outcome.map (Except.map result.combine), later.db,
        before.committed ++ later.committed⟩ := by
  cases hvalid : validateOptions batchSize (some a) with
  | error error =>
      simp only [runBatchedBackfill, hvalid] at houtcome
      cases houtcome
  | ok _ =>
      have hsize : ¬batchSize < 1 := by
        intro h
        simp [validateOptions, h] at hvalid
      have ha : ¬a < 1 := by
        intro h
        simp [validateOptions, hsize, h] at hvalid
      have hvalid' : ∀ c : Int, 1 ≤ c → validateOptions batchSize (some c) = .ok () := by
        intro c hc
        have : ¬c < 1 := by omega
        simp [validateOptions, hsize, this]
      simp only [runBatchedBackfill, hvalid' a (by omega), hvalid' b hb,
        hvalid' (a + b) (by omega)] at houtcome ⊢
      have hstart : (BackfillRun.start : BackfillRun Cursor).batches + first.length = a := by
        simpa [BackfillRun.start] using hlength
      obtain ⟨hbatches, hsplit⟩ :=
        backfillLoop_append second hstart (by omega : (0 : Int) ≤ b) houtcome hcompleted
      have hgo : continues (some (a + b)) result.batches = true := by
        simp only [continues, decide_eq_true_eq]
        omega
      -- the second run starts its counters afresh
      have hfresh : result.batches = (result.combine BackfillRun.start).batches ∧
          result.processed = (result.combine BackfillRun.start).processed := by
        simp [BackfillRun.combine, BackfillRun.start]
      rw [hsplit]
      simp only
      rw [backfillLoop_restart hgo hfresh.1 hfresh.2, ← hbatches, backfillLoop_combine]

/-! ## A straight run of the code -/

/-- The loop without faults runs whole batches until its limit or the last batch. -/
theorem backfillLoop_straight {job : Job Db Cursor} {batchSize : Int}
    {batches : List (BackfillBatch Cursor)} (run : BackfillRun Cursor) {db work : Db}
    (h : wholeBatches job batchSize batches.length db = .ok (batches, work))
    (hdone : ∀ batch ∈ batches.dropLast, batch.done = false) :
    backfillLoop job batchSize (some (run.batches + batches.length))
        (List.replicate batches.length none) run db =
      ⟨some (.ok (run.addAll batches)), work, batches⟩ := by
  induction batches generalizing run db with
  | nil =>
      obtain rfl : db = work := by simpa [wholeBatches] using h
      simp [backfillLoop, continues]
  | cons batch batches ih =>
      obtain ⟨⟨batch', middle⟩, hbody, hrest⟩ := bind_eq_ok.mp h
      obtain ⟨⟨batches', work'⟩, hbatches, hrest⟩ := bind_eq_ok.mp hrest
      simp only [pure_eq_ok, Except.ok.injEq, Prod.mk.injEq, List.cons.injEq] at hrest
      obtain ⟨⟨rfl, rfl⟩, rfl⟩ := hrest
      have hgo : continues (some (run.batches + (batch' :: batches').length)) run.batches =
          true := by
        simp only [continues, decide_eq_true_eq, List.length_cons]
        omega
      simp only [List.length_cons, List.replicate_succ, backfillLoop] at hgo ⊢
      simp only [hgo, if_true, batchTransaction_none hbody]
      cases batches' with
      | nil =>
          obtain rfl : middle = work' := by simpa [wholeBatches] using hbatches
          cases hd : batch'.done with
          | true => simp
          | false => simp [backfillLoop, continues, BackfillRun.add]
      | cons next rest =>
          have hd : batch'.done = false := hdone batch' (by simp)
          have hlimit : run.batches + (((next :: rest).length + 1 : Nat) : Int) =
              (run.add batch').batches + (next :: rest).length := by
            simp only [BackfillRun.add]
            push_cast
            omega
          rw [hlimit, ih (run.add batch') hbatches fun batch hb => hdone batch (by simp [hb])]
          simp [hd]

/-! ## Many invocations -/

/-- After any invocations the committed state is the one after as many whole batches. -/
theorem invocations_whole (job : Job Db Cursor) (batchSize : Int)
    (calls : List (Option Int × List (Option Fault))) (db : Db) :
    let runs := invocations job batchSize calls db
    let committed := runs.flatMap Invocation.committed
    wholeBatches job batchSize committed.length db = .ok (committed, committedState db runs) := by
  induction calls generalizing db with
  | nil => rfl
  | cons call calls ih =>
      obtain ⟨maxBatches, script⟩ := call
      have hfirst := (runBatchedBackfill_whole job batchSize maxBatches script db).1
      exact wholeBatches_append hfirst (ih _)

/-- Every invocation that returns counts exactly the batches it committed. -/
theorem invocations_counts {job : Job Db Cursor} (hjob : job.LoadsSaved) {batchSize : Int}
    {calls : List (Option Int × List (Option Fault))} {db : Db} {invocation : Invocation Db Cursor}
    (hmem : invocation ∈ invocations job batchSize calls db) {run : BackfillRun Cursor}
    (hrun : invocation.outcome = some (.ok run)) :
    run.batches = invocation.committed.length ∧
      run.processed = (invocation.committed.map BackfillBatch.processed).sum ∧
      ∃ loaded, job.loadCheckpoint invocation.db = .ok (run.checkpoint, loaded) := by
  induction calls generalizing db with
  | nil => cases hmem
  | cons call calls ih =>
      obtain ⟨maxBatches, script⟩ := call
      rcases List.mem_cons.mp hmem with rfl | hmem
      · obtain ⟨hwhole, hcounts⟩ := runBatchedBackfill_whole job batchSize maxBatches script db
        obtain rfl := hcounts run hrun
        refine ⟨by simp [addAll_batches, BackfillRun.start],
          by simp [addAll_processed, BackfillRun.start], ?_⟩
        exact wholeBatches_checkpoint hjob (runBatchedBackfill_committed hrun) hwhole .start
      · exact ih hmem

/-- Interrupted backfills equal uninterrupted ones.  After any invocations, however each ended,
the committed state is the one after as many whole batches as were committed, and the counters
an invocation returns are those of its own batches.  While no invocation but the last saw the
end of the work, one run of the code limited to these batches gives the same, and a run limited
to `a` batches followed by one limited to `b` is a run limited to `a + b`. -/
theorem interrupted_backfill {job : Job Db Cursor} (hjob : job.LoadsSaved) (batchSize : Int)
    (calls : List (Option Int × List (Option Fault))) (db : Db) :
    let runs := invocations job batchSize calls db
    let committed := runs.flatMap Invocation.committed
    wholeBatches job batchSize committed.length db = .ok (committed, committedState db runs) ∧
    (∀ invocation ∈ runs, ∀ run, invocation.outcome = some (.ok run) →
      run.batches = invocation.committed.length ∧
        run.processed = (invocation.committed.map BackfillBatch.processed).sum ∧
        ∃ loaded, job.loadCheckpoint invocation.db = .ok (run.checkpoint, loaded)) ∧
    (1 ≤ batchSize → committed ≠ [] → (∀ batch ∈ committed.dropLast, batch.done = false) →
      runBatchedBackfill job batchSize (some committed.length)
          (List.replicate committed.length none) db =
        ⟨some (.ok (BackfillRun.start.addAll committed)), committedState db runs, committed⟩) ∧
    ∀ a b first second before later result, (first.length : Int) = a → 1 ≤ b →
      runBatchedBackfill job batchSize (some a) first db = before →
      before.outcome = some (.ok result) → result.completed = false →
      runBatchedBackfill job batchSize (some b) second before.db = later →
        runBatchedBackfill job batchSize (some (a + b)) (first ++ second) db =
          ⟨later.outcome.map (Except.map result.combine), later.db,
            before.committed ++ later.committed⟩ := by
  have hwhole := invocations_whole job batchSize calls db
  refine ⟨hwhole, ?_, ?_, ?_⟩
  · intro invocation hmem run hrun
    exact invocations_counts hjob hmem hrun
  · intro hsize hne hdone
    have hstraight := backfillLoop_straight .start hwhole hdone
    have hpositive : ¬(((invocations job batchSize calls db).flatMap
        Invocation.committed).length : Int) < 1 := by
      have := List.length_pos_of_ne_nil hne
      omega
    have hvalid : ¬batchSize < 1 := by omega
    simp only [runBatchedBackfill, validateOptions, if_neg hvalid, if_neg hpositive]
    simpa [BackfillRun.start] using hstraight
  · rintro a b first second before later result hlength hb rfl houtcome hcompleted rfl
    exact runBatchedBackfill_add hb hlength houtcome hcompleted

/-- Rows to migrate, of which the first `migrated` are done. -/
structure Items where
  total : Nat
  migrated : Nat
  checkpoint : Option Nat

/-- A job that migrates the rows in order. -/
def itemsJob : Job Items Nat where
  loadCheckpoint items := .ok (items.checkpoint, items)
  processBatch items cursor batchSize :=
    let first := cursor.getD 0
    let taken := min batchSize.toNat (items.total - first)
    .ok (⟨some (first + taken), taken, decide ((taken : Int) < batchSize)⟩,
      { items with migrated := items.migrated + taken })
  saveCheckpoint items cursor := .ok { items with checkpoint := cursor }

theorem itemsJob_loadsSaved : itemsJob.LoadsSaved := by
  intro items cursor saved h
  obtain rfl := Except.ok.inj h
  exact ⟨_, rfl⟩

/-- A second worker finishes what an interrupted one began. -/
theorem interrupted_backfill_items :
    let calls := [(none, [none, some ⟨.process, .runtimeError "interruption"⟩]),
      (none, [none, none])]
    let runs := invocations itemsJob 2 calls ⟨5, 0, none⟩
    let committed := runs.flatMap Invocation.committed
    wholeBatches itemsJob 2 committed.length ⟨5, 0, none⟩ =
      .ok (committed, committedState ⟨5, 0, none⟩ runs) :=
  (interrupted_backfill itemsJob_loadsSaved 2 _ _).1

end ProdkitStorage.Database
