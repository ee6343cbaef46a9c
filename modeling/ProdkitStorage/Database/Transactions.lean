import ProdkitStorage.Database.Errors
import Mathlib.Data.Rat.Defs
import Mathlib.Algebra.Order.Ring.Rat
import Mathlib.Data.Nat.Size

/-!
# Transactions that are retried

`database/transactions.py`.  An attempt is given by what its operation and its commit do,
and a run by the attempts there would be.  The two functions of the source differ in that one of
them awaits what the other calls.

The delay before the next attempt is computed with the integer `2 ** (attempt - 1)`, which
has to fit a float.  `reports_iff`: a run reports its last attempt exactly when it does not
come to a delay after the attempt 1025.
-/

namespace ProdkitStorage.Database

/-! ## Attempts -/

/-- What happens in a run. -/
inductive TransactionEvent where
  | began
  | committed
  | rolledBack
  | slept (seconds : ℚ)
deriving DecidableEq

/-- One attempt: what the operation returns or raises, and what the commit raises if the
operation returned. -/
structure Attempt (ν τ : Type) where
  operation : Except ν τ
  commit : Option ν

/-- `with factory.begin() as session: return operation(session)`. -/
def Attempt.run {ν τ : Type} (attempt : Attempt ν τ) : Except ν τ × List TransactionEvent :=
  match attempt.operation with
  | .error error => (.error error, [.began, .rolledBack])
  | .ok value =>
      match attempt.commit with
      | some error => (.error error, [.began, .rolledBack])
      | none => (.ok value, [.began, .committed])

/-! ## Runs -/

/-- An exception a run ends with. -/
inductive Escaped (ν : Type) where
  /-- One that was raised in an attempt. -/
  | raised (error : ν)
  | valueError (message : String)
  | overflowError (message : String)
  | assertionError (message : String)
deriving DecidableEq

/-- A positive float, or one that is not positive. -/
inductive Seconds where
  | finite (value : ℚ)
  | infinite

/-- `base * power`, at most two: a product that is too large for a float is infinite. -/
def Seconds.capped : Seconds → ℕ → ℚ
  | .finite value, power => min (value * power) 2
  | .infinite, _ => 2

/-- `base <= 0`. -/
def Seconds.nonPositive : Seconds → Bool
  | .finite value => value ≤ 0
  | .infinite => false

/-- An integer of more than 1024 bits is not converted to a float. -/
def tooLargeForFloat (n : ℕ) : Bool := 1024 < n.size

/-- `_delay`.  `uniform` is `random.uniform`, for each attempt. -/
def delay {ν : Type} (uniform : ℕ → ℚ → ℚ → ℚ) (base : Seconds) (attempt : ℕ) :
    Except (Escaped ν) ℚ :=
  if tooLargeForFloat (2 ^ (attempt - 1)) then
    .error (.overflowError "int too large to convert to float")
  else
    let cap := base.capped (2 ^ (attempt - 1))
    .ok (uniform attempt (cap / 2) cap)

section
variable {ν τ : Type} [DecidableEq ν] (errors : Exceptions ν)

/-- The loop, with the attempts that remain. -/
def transactionLoop (uniform : ℕ → ℚ → ℚ → ℚ) (maxAttempts : ℤ) (base : Seconds)
    (attempts : ℕ → Attempt ν τ) : ℕ → ℕ → Except (Escaped ν) τ × List TransactionEvent
  | 0, _ => (.error (.assertionError "unreachable"), [])
  | remaining + 1, attempt =>
      match (attempts attempt).run with
      | (.ok value, events) => (.ok value, events)
      | (.error error, events) =>
          if !(errors error).isException then (.error (.raised error), events)
          else if attempt = maxAttempts ∨ !isRetryableDatabaseError errors error then
            (.error (.raised error), events)
          else
            match delay uniform base attempt with
            | .error escaped => (.error escaped, events)
            | .ok seconds =>
                let (result, later) :=
                  transactionLoop uniform maxAttempts base attempts remaining (attempt + 1)
                (result, events ++ .slept seconds :: later)

/-- What both functions do. -/
def runTransaction (uniform : ℕ → ℚ → ℚ → ℚ) (attempts : ℕ → Attempt ν τ) (maxAttempts : ℤ)
    (base : Seconds) : Except (Escaped ν) τ × List TransactionEvent :=
  if maxAttempts < 1 then (.error (.valueError "max_attempts must be positive"), [])
  else if base.nonPositive then (.error (.valueError "base_delay_seconds must be positive"), [])
  else transactionLoop errors uniform maxAttempts base attempts maxAttempts.toNat 1

/-- `run_sync_transaction`, with `time.sleep`. -/
def runSyncTransaction (uniform : ℕ → ℚ → ℚ → ℚ) (attempts : ℕ → Attempt ν τ)
    (maxAttempts : ℤ := 3) (base : Seconds := .finite (1 / 20)) :
    Except (Escaped ν) τ × List TransactionEvent :=
  runTransaction errors uniform attempts maxAttempts base

/-- `run_async_transaction`, with `asyncio.sleep`. -/
def runAsyncTransaction (uniform : ℕ → ℚ → ℚ → ℚ) (attempts : ℕ → Attempt ν τ)
    (maxAttempts : ℤ := 3) (base : Seconds := .finite (1 / 20)) :
    Except (Escaped ν) τ × List TransactionEvent :=
  runTransaction errors uniform attempts maxAttempts base

/-! ## What a run reports -/

/-- The attempt failed, and with an error after which there may be another. -/
def Attempt.Retried (attempt : Attempt ν τ) : Prop :=
  ∃ error, attempt.run.1 = .error error ∧ (errors error).isException = true ∧
    isRetryableDatabaseError errors error = true

/-- It is not the sleep between two attempts. -/
def TransactionEvent.ofTransaction : TransactionEvent → Bool
  | .slept _ => false
  | _ => true

/-- What an attempt ends with, as what a run ends with. -/
def reported : Except ν τ → Except (Escaped ν) τ
  | .ok value => .ok value
  | .error error => .error (.raised error)

/-- A run of attempts, from one to the last, that ends with what the last one ended with. -/
structure Reports (attempts : ℕ → Attempt ν τ) (first maxAttempts last : ℕ)
    (run : Except (Escaped ν) τ × List TransactionEvent) : Prop where
  first_le : first ≤ last
  le_max : last ≤ maxAttempts
  retried : ∀ k, first ≤ k → k < last → (attempts k).Retried errors
  stopped : last = maxAttempts ∨ ¬(attempts last).Retried errors
  result : run.1 = reported (attempts last).run.1
  /-- Each attempt is a transaction of its own. -/
  transactions : run.2.filter TransactionEvent.ofTransaction =
    (List.range' first (last + 1 - first)).flatMap fun k => (attempts k).run.2
  commits : run.2.count .committed ≤ 1

end

variable {ν τ : Type} {errors : Exceptions ν} {uniform : ℕ → ℚ → ℚ → ℚ}
  {attempts : ℕ → Attempt ν τ} {base : Seconds}

/-- An attempt is one transaction, which is committed when it returns. -/
theorem Attempt.run_cases (attempt : Attempt ν τ) :
    (∃ value, attempt.run = (.ok value, [.began, .committed])) ∨
      ∃ error, attempt.run = (.error error, [.began, .rolledBack]) := by
  unfold Attempt.run
  split
  · next error _ => exact .inr ⟨error, rfl⟩
  · next value _ =>
      split
      · next error _ => exact .inr ⟨error, rfl⟩
      · exact .inl ⟨value, rfl⟩

theorem tooLargeForFloat_pow (k : ℕ) : tooLargeForFloat (2 ^ k) = decide (1024 ≤ k) := by
  rw [tooLargeForFloat, decide_eq_decide, Nat.size_pow, Nat.lt_succ_iff]

theorem delay_ok {attempt : ℕ} (h : attempt ≤ 1024) :
    ∃ seconds, @delay ν uniform base attempt = .ok seconds := by
  have hsmall : ¬1024 ≤ attempt - 1 := by omega
  rw [delay, tooLargeForFloat_pow, decide_eq_false hsmall]
  exact ⟨_, rfl⟩

theorem delay_overflow {attempt : ℕ} (h : 1025 ≤ attempt) :
    @delay ν uniform base attempt =
      .error (.overflowError "int too large to convert to float") := by
  have hlarge : 1024 ≤ attempt - 1 := by omega
  rw [delay, tooLargeForFloat_pow, decide_eq_true hlarge]
  rfl

section
variable [DecidableEq ν]

/-- Attempts that were retried are not committed. -/
theorem Attempt.Retried.events {attempt : Attempt ν τ} (h : attempt.Retried errors) :
    ∃ error, attempt.run = (.error error, [.began, .rolledBack]) ∧
      (errors error).isException = true ∧ isRetryableDatabaseError errors error = true := by
  obtain ⟨error, hrun, hexception, hretryable⟩ := h
  rcases attempt.run_cases with ⟨value, hcommitted⟩ | ⟨error', hfailed⟩
  · rw [hcommitted] at hrun
    cases hrun
  · rw [hfailed] at hrun
    cases hrun
    exact ⟨_, hfailed, hexception, hretryable⟩

/-- An attempt that is not retried is the last one. -/
theorem transactionLoop_last {maxAttempts attempt : ℕ} (remaining : ℕ)
    (h : attempt = maxAttempts ∨ ¬(attempts attempt).Retried errors) :
    transactionLoop errors uniform maxAttempts base attempts (remaining + 1) attempt =
      (reported (attempts attempt).run.1, (attempts attempt).run.2) := by
  rw [transactionLoop]
  rcases (attempts attempt).run_cases with ⟨value, hrun⟩ | ⟨error, hrun⟩
  · rw [hrun]
    rfl
  · rw [hrun]
    by_cases hexception : (errors error).isException = true
    · have hstops : (attempt : ℤ) = maxAttempts ∨ !isRetryableDatabaseError errors error := by
        rcases h with rfl | h
        · exact .inl rfl
        · refine .inr ?_
          rw [Bool.not_eq_eq_eq_not, Bool.not_true, Bool.eq_false_iff]
          exact fun hretryable => h ⟨error, by rw [hrun], hexception, hretryable⟩
      simp only [hexception, Bool.not_true, Bool.false_eq_true, if_false, if_pos hstops]
      rfl
    · simp only [hexception, Bool.not_false, if_true]
      rfl

/-- An attempt that is retried is followed by a sleep, or by what the delay raises. -/
theorem transactionLoop_retried {maxAttempts attempt : ℕ} (remaining : ℕ)
    (hlt : attempt < maxAttempts) (h : (attempts attempt).Retried errors) :
    transactionLoop errors uniform maxAttempts base attempts (remaining + 1) attempt =
      match delay uniform base attempt with
      | .error escaped => (.error escaped, [.began, .rolledBack])
      | .ok seconds =>
          let (result, later) :=
            transactionLoop errors uniform maxAttempts base attempts remaining (attempt + 1)
          (result, [.began, .rolledBack] ++ .slept seconds :: later) := by
  obtain ⟨error, hrun, hexception, hretryable⟩ := h.events
  have hgoes :
      ¬((attempt : ℤ) = maxAttempts ∨ (!isRetryableDatabaseError errors error) = true) := by
    rw [hretryable]
    rintro (heq | hnot)
    · omega
    · cases hnot
  rw [transactionLoop, hrun]
  simp only [hexception, Bool.not_true, Bool.false_eq_true, if_false, if_neg hgoes]

/-- The attempts from this one on come to a delay that is not computed. -/
def ReachesOverflow (errors : Exceptions ν) (attempts : ℕ → Attempt ν τ) (first maxAttempts : ℕ) :
    Prop :=
  1026 ≤ maxAttempts ∧ ∀ k, first ≤ k → k ≤ 1025 → (attempts k).Retried errors

/-- A run that ends with its first attempt. -/
theorem reports_last {first maxAttempts : ℕ} (hle : first ≤ maxAttempts)
    (h : first = maxAttempts ∨ ¬(attempts first).Retried errors) :
    Reports errors attempts first maxAttempts first
      (reported (attempts first).run.1, (attempts first).run.2) := by
  have hone : List.range' first (first + 1 - first) = [first] := by
    rw [Nat.add_sub_cancel_left]
    rfl
  refine ⟨Nat.le_refl _, hle, fun k _ _ => by omega, h, rfl, ?_, ?_⟩
  · rw [hone, List.flatMap_singleton]
    rcases (attempts first).run_cases with ⟨value, hrun⟩ | ⟨error, hrun⟩
    · rw [hrun]
      rfl
    · rw [hrun]
      rfl
  · rcases (attempts first).run_cases with ⟨value, hrun⟩ | ⟨error, hrun⟩
    · rw [hrun]
      exact Nat.le_refl 1
    · rw [hrun]
      exact Nat.zero_le 1

/-- A run with one more attempt before it. -/
theorem Reports.cons {first maxAttempts last : ℕ}
    {run : Except (Escaped ν) τ × List TransactionEvent}
    (h : Reports errors attempts (first + 1) maxAttempts last run)
    (hretried : (attempts first).Retried errors) (seconds : ℚ) :
    Reports errors attempts first maxAttempts last
      (run.1, [.began, .rolledBack] ++ .slept seconds :: run.2) := by
  obtain ⟨error, hrun, -, -⟩ := hretried.events
  have hfirst := h.first_le
  refine ⟨by omega, h.le_max, ?_, h.stopped, h.result, ?_, ?_⟩
  · intro k hk hlast
    rcases Nat.eq_or_lt_of_le hk with rfl | hk
    · exact hretried
    · exact h.retried k hk hlast
  · have hrange : List.range' first (last + 1 - first) =
        first :: List.range' (first + 1) (last + 1 - (first + 1)) := by
      rw [show last + 1 - first = last + 1 - (first + 1) + 1 by omega, List.range'_succ]
    rw [hrange, List.flatMap_cons, ← h.transactions, hrun]
    rfl
  · exact h.commits

theorem transactionLoop_reports {maxAttempts attempt remaining : ℕ}
    (hcount : attempt + remaining = maxAttempts) (hattempt : attempt ≤ 1025)
    (hnot : ¬ReachesOverflow errors attempts attempt maxAttempts) :
    ∃ last, Reports errors attempts attempt maxAttempts last
      (transactionLoop errors uniform maxAttempts base attempts (remaining + 1) attempt) := by
  induction remaining generalizing attempt with
  | zero =>
      have hlast : attempt = maxAttempts ∨ ¬(attempts attempt).Retried errors := .inl (by omega)
      rw [transactionLoop_last 0 hlast]
      exact ⟨attempt, reports_last (by omega) hlast⟩
  | succ remaining ih =>
      by_cases hretried : (attempts attempt).Retried errors
      · -- after the attempt 1025 there would be a delay that is not computed
        have hearly : attempt ≤ 1024 := by
          by_contra hlate
          refine hnot ⟨by omega, fun k hk hle => ?_⟩
          rw [show k = attempt by omega]
          exact hretried
        have hnot' : ¬ReachesOverflow errors attempts (attempt + 1) maxAttempts := by
          rintro ⟨hmax, hall⟩
          refine hnot ⟨hmax, fun k hk hle => ?_⟩
          rcases Nat.eq_or_lt_of_le hk with rfl | hk
          · exact hretried
          · exact hall k hk hle
        obtain ⟨last, hrest⟩ := ih (by omega) (by omega) hnot'
        obtain ⟨seconds, hseconds⟩ := delay_ok hearly
        rw [transactionLoop_retried _ (by omega) hretried, hseconds]
        exact ⟨last, hrest.cons hretried seconds⟩
      · rw [transactionLoop_last _ (.inr hretried)]
        exact ⟨attempt, reports_last (by omega) (.inr hretried)⟩

theorem transactionLoop_overflow {maxAttempts attempt remaining : ℕ}
    (hcount : attempt + remaining = maxAttempts) (hattempt : attempt ≤ 1025)
    (hover : ReachesOverflow errors attempts attempt maxAttempts) :
    (transactionLoop errors uniform maxAttempts base attempts (remaining + 1) attempt).1 =
      .error (.overflowError "int too large to convert to float") := by
  obtain ⟨hmax, hall⟩ := hover
  induction remaining generalizing attempt with
  | zero => omega
  | succ remaining ih =>
      have hretried := hall attempt (Nat.le_refl _) hattempt
      rw [transactionLoop_retried _ (by omega) hretried]
      rcases Nat.lt_or_ge attempt 1025 with hearly | hlate
      · obtain ⟨seconds, hseconds⟩ := delay_ok (Nat.le_of_lt_succ hearly)
        rw [hseconds]
        exact ih (by omega) (by omega) fun k hk hle => hall k (by omega) hle
      · rw [delay_overflow hlate]

end

/-- The sync and the async run report their last attempt, with positive limits, exactly when they
do not come to a delay after the attempt 1025. -/
theorem runTransaction_reports_iff {ν τ : Type} [DecidableEq ν] (errors : Exceptions ν)
    (uniform : ℕ → ℚ → ℚ → ℚ) (attempts : ℕ → Attempt ν τ) {maxAttempts : ℕ} {base : Seconds}
    (hmax : 1 ≤ maxAttempts) (hbase : base.nonPositive = false) :
    ((∃ last, Reports errors attempts 1 maxAttempts last
        (runSyncTransaction errors uniform attempts maxAttempts base)) ↔
      ¬ReachesOverflow errors attempts 1 maxAttempts) ∧
    ((∃ last, Reports errors attempts 1 maxAttempts last
        (runAsyncTransaction errors uniform attempts maxAttempts base)) ↔
      ¬ReachesOverflow errors attempts 1 maxAttempts) := by
  have hrun : runTransaction errors uniform attempts maxAttempts base =
      transactionLoop errors uniform maxAttempts base attempts (maxAttempts - 1 + 1) 1 := by
    rw [runTransaction, if_neg (by omega), hbase, Int.toNat_natCast, Nat.sub_add_cancel hmax]
    rfl
  have hiff : (∃ last, Reports errors attempts 1 maxAttempts last
      (runTransaction errors uniform attempts maxAttempts base)) ↔
      ¬ReachesOverflow errors attempts 1 maxAttempts := by
    rw [hrun]
    constructor
    · rintro ⟨last, hreports⟩ hover
      have hresult := hreports.result
      rw [transactionLoop_overflow (by omega) (by decide) hover] at hresult
      rcases (attempts last).run_cases with ⟨value, hlast⟩ | ⟨error, hlast⟩
      · rw [hlast] at hresult
        cases hresult
      · rw [hlast] at hresult
        cases hresult
    · exact transactionLoop_reports (by omega) (by decide)
  exact ⟨hiff, hiff⟩

/-! ## Samples -/

/-- A serialization failure. -/
def serializationFailure : Exceptions Unit :=
  fun _ => { sqlstate := some "40001", isDbapiError := true }

/-- The first of the attempts fails. -/
def failsOnce (k : ℕ) : Attempt Unit String where
  operation := if k = 1 then .error () else .ok "done"
  commit := none

/-- All attempts fail. -/
def failsAlways (_ : ℕ) : Attempt Unit String := ⟨.error (), none⟩

theorem retryable_serializationFailure :
    isRetryableDatabaseError serializationFailure () = true := by
  have hcode : getSqlstate serializationFailure () = some "40001" :=
    (getSqlstate_eq_some_iff (by decide)).mpr (.here (fun h => (nomatch h.2)) rfl)
  rw [isRetryableDatabaseError, hasSqlstate, hcode]
  decide

theorem runTransaction_failsOnce : ∃ last, Reports serializationFailure failsOnce 1 3 last
    (runSyncTransaction serializationFailure (fun _ low _ => low) failsOnce (3 : ℕ)
      (.finite 1)) :=
  ((runTransaction_reports_iff serializationFailure (fun _ low _ => low) failsOnce (by decide)
    (by rfl)).1).mpr fun h => absurd h.1 (by decide)

/-- After 1025 failures the run ends with the error of a multiplication. -/
theorem runTransaction_overflows :
    ¬∀ (errors : Exceptions Unit) (attempts : ℕ → Attempt Unit String)
      (uniform : ℕ → ℚ → ℚ → ℚ) (maxAttempts : ℕ) (base : Seconds), 1 ≤ maxAttempts →
      base.nonPositive = false → ∃ last, Reports errors attempts 1 maxAttempts last
        (runSyncTransaction errors uniform attempts maxAttempts base) := by
  intro hall
  have hretried : (failsAlways 1).Retried serializationFailure :=
    ⟨(), rfl, rfl, retryable_serializationFailure⟩
  have hnot := ((runTransaction_reports_iff _ _ _ (by decide) (by rfl)).1).mp
    (hall serializationFailure failsAlways (fun _ low _ => low) 1026 (.finite 1) (by decide)
      (by rfl))
  exact hnot ⟨Nat.le_refl _, fun _ _ _ => hretried⟩

end ProdkitStorage.Database
