import ProdkitStorage.Foundation.Resend
import ProdkitStorage.Redis.Idempotency
import ProdkitStorage.Redis.LockSafety

/-!
# Commands the runtime sends again

`redis/runtime.py` gives the client a retry policy, so a single command may run on
the server more than once before one reply arrives.  The calls of `redis/locks.py`
and `redis/idempotency.py` are followed here with their commands re-sent; between
two executions the other clients may do anything but store this call's token.

`begin` recognises the record an earlier execution stored.  `SET NX`, `complete` and
the two `release` scripts do not: what their first execution leaves behind reads to
the second like a refusal.
-/

namespace ProdkitStorage.Redis

open ProdkitStorage.Foundation
open ProdkitStorage.Foundation.Resend
open ProdkitStorage.Python

/-! ## The lock -/

namespace Lock

/-- One round of `acquire`: what happens while it sleeps, how its command is re-sent, and the
reading of the clock after the attempt. -/
structure Round where
  sleep : Texts → Texts
  between : List (Texts → Texts)
  clock : Rat

variable (lock : RedisLock)

/-- The key stores the token of the lock. -/
def RedisLock.Stored (ks : Texts) : Prop := ks.get lock.key = some lock.token

/-- `acquire`, called at the reading `start`: `none` while it polls. -/
def RedisLock.acquire (start : Rat) : List Round → Texts → Option (Texts × Except PyError Bool)
  | [], _ => none
  | round :: rounds, ks =>
      let sent := resend lock.attempt round.between (round.sleep ks)
      match lock.afterAttempt sent.2 start round.clock with
      | some outcome => some (sent.1, outcome)
      | none => acquire start rounds sent.1

/-- The state the last execution of the last attempt meets. -/
def RedisLock.lastAttempt (start : Rat) : List Round → Texts → Option Texts
  | [], _ => none
  | round :: rounds, ks =>
      let sent := resend lock.attempt round.between (round.sleep ks)
      match lock.afterAttempt sent.2 start round.clock with
      | some _ => some (last lock.attempt round.between (round.sleep ks))
      | none => lastAttempt start rounds sent.1

/-- The command of `release`. -/
def RedisLock.releaseCommand (ks : Texts) : Texts × Int := releaseScript ks lock.key lock.token

/-- `release` of a handle whose flag is up. -/
def RedisLock.releaseAgain (between : List (Texts → Texts)) (ks : Texts) : Texts × Bool :=
  let after := resend lock.releaseCommand between ks
  (after.1, after.2 != 0)

/-- `acquire` returns `True` whenever the key then holds the token. -/
def RedisLock.AcquireRight (after : Texts) (outcome : Except PyError Bool) : Prop :=
  ∀ later, Foreign lock.Stored later → lock.Stored (later after) → outcome = .ok true

/-- `release` returns `True` whenever one of its executions removed the key. -/
def RedisLock.ReleaseRight (between : List (Texts → Texts)) (ks : Texts) : Prop :=
  (∃ e ∈ executions lock.releaseCommand between ks, lock.Stored e) →
    (lock.releaseAgain between ks).2 = true

variable {lock}

/-- The command that is sent once is the call. -/
theorem RedisLock.releaseAgain_once (ks : Texts) :
    lock.releaseAgain [] ks = lock.release true ks := rfl

/-- An attempt that meets a stranger's token, or none, leaves the lock's token exactly when it
acquires. -/
theorem RedisLock.attempt_stored {ks : Texts} (h : ¬lock.Stored ks) :
    lock.Stored (lock.attempt ks).1 ↔ (lock.attempt ks).2 = true := by
  cases hlive : ks.live lock.key with
  | none =>
      rw [Stored, attempt, get_setNx_absent hlive, setNx_absent hlive]
      simp
  | some entry =>
      rw [attempt, setNx_refused hlive]
      simpa using h

/-- An attempt that meets the lock's own token fails and leaves it. -/
theorem RedisLock.attempt_own {ks : Texts} (h : lock.Stored ks) :
    lock.attempt ks = (ks, false) := by
  obtain ⟨expireAt, hlive⟩ := Keyspace.get_eq_some.mp h
  exact setNx_refused hlive _ _

/-- The outcome of `acquire` is that of its last attempt. -/
theorem RedisLock.acquire_last {start : Rat} {rounds : List Round} {ks after : Texts}
    {outcome : Except PyError Bool} (h : lock.acquire start rounds ks = some (after, outcome)) :
    ∃ met clock, lock.lastAttempt start rounds ks = some met ∧
      after = (lock.attempt met).1 ∧
      lock.afterAttempt (lock.attempt met).2 start clock = some outcome := by
  induction rounds generalizing ks with
  | nil => cases h
  | cons round rounds ih =>
      simp only [acquire, lastAttempt] at h ⊢
      rw [resend_eq] at h ⊢
      cases hdone : lock.afterAttempt
          (lock.attempt (last lock.attempt round.between (round.sleep ks))).2 start round.clock with
      | none =>
          rw [hdone] at h
          exact ih h
      | some result =>
          rw [hdone] at h
          obtain ⟨rfl, rfl⟩ := Prod.mk.inj (Option.some.inj h)
          exact ⟨_, round.clock, rfl, rfl, hdone⟩

theorem RedisLock.afterAttempt_true {start clock : Rat} {acquired : Bool}
    {outcome : Except PyError Bool}
    (h : lock.afterAttempt acquired start clock = some outcome) :
    outcome = .ok true ↔ acquired = true := by
  cases acquired with
  | true =>
      obtain rfl := Option.some.inj h
      simp
  | false =>
      simp only [afterAttempt, Bool.false_eq_true, if_false] at h
      split at h
      · split at h
        · obtain rfl := Option.some.inj h
          simp
        · obtain rfl := Option.some.inj h
          simp
      · cases h

/-- `acquire` returns `True` whenever the key then holds the token, exactly when the execution whose
reply it returns on does not meet the token already. -/
theorem RedisLock.acquire_right_iff {start : Rat} {rounds : List Round} {ks after : Texts}
    {outcome : Except PyError Bool} (h : lock.acquire start rounds ks = some (after, outcome)) :
    lock.AcquireRight after outcome ↔
      ∀ met, lock.lastAttempt start rounds ks = some met → ¬lock.Stored met := by
  obtain ⟨met, clock, hmet, rfl, houtcome⟩ := acquire_last h
  rw [AcquireRight, hmet, afterAttempt_true houtcome]
  constructor
  · intro hright met' hmet' hstored
    obtain rfl := Option.some.inj hmet'
    have hfailed := attempt_own hstored
    have hnow := hright id (fun _ h => h) (by rw [hfailed]; exact hstored)
    rw [hfailed] at hnow
    cases hnow
  · intro hfresh later hforeign hstored
    exact (attempt_stored (hfresh met rfl)).mp (hforeign _ hstored)

theorem RedisLock.releaseCommand_gone (ks : Texts) : ¬lock.Stored (lock.releaseCommand ks).1 := by
  unfold Stored releaseCommand
  by_cases h : ks.get lock.key = some lock.token
  · rw [releaseScript_own h, get_del, if_pos rfl]
    exact nofun
  · rw [releaseScript_other h]
    exact h

/-- The script deletes the key, and answers so, exactly when it meets the token. -/
theorem RedisLock.releaseCommand_found (ks : Texts) :
    ((lock.releaseCommand ks).2 != 0) = true ↔ lock.Stored ks := by
  unfold Stored releaseCommand
  by_cases h : ks.get lock.key = some lock.token
  · rw [releaseScript_own h]
    simp [h]
  · rw [releaseScript_other h]
    simp [h]

/-- `release` returns `True` whenever one of its executions removed the key, exactly when no
execution with a lost reply did. -/
theorem RedisLock.release_right_iff {between : List (Texts → Texts)}
    (hforeign : ∀ happened ∈ between, Foreign lock.Stored happened) (ks : Texts) :
    lock.ReleaseRight between ks ↔ ¬∃ e ∈ lost lock.releaseCommand between ks, lock.Stored e := by
  rw [← found_once_iff releaseCommand_gone hforeign ks, ReleaseRight, releaseAgain, resend_eq]
  simp only [releaseCommand_found]

end Lock

/-! ## The idempotency record -/

namespace Idempotency

open ProdkitStorage.Foundation.Json (eqStr)

/-- The stored record carries the token. -/
def Carries (token : String) (stored : Option Json) : Prop :=
  ∃ record, stored = some record ∧ eqStr (record.field "token") token = true

/-- The command of `begin`. -/
def beginCommand (token fingerprint : String) (stored : Option Json) : Option Json × Json :=
  beginScript stored (inProgressRecord token fingerprint)

/-- The command of `complete`. -/
def completeCommand (token fingerprint : String) (response : Json) (stored : Option Json) :
    Option Json × Int :=
  completeScript stored token fingerprint (completedRecord fingerprint response)

/-- `begin`, past its checks. -/
def beginAgain (token fingerprint : String) (between : List (Option Json → Option Json))
    (stored : Option Json) : Option Json × Except PyError IdempotencyResult :=
  let after := resend (beginCommand token fingerprint) between stored
  (after.1, readReply after.2 token fingerprint)

/-- `complete`, past its checks. -/
def completeAgain (token fingerprint : String) (response : Json)
    (between : List (Option Json → Option Json)) (stored : Option Json) :
    Option Json × Except PyError Unit :=
  let after := resend (completeCommand token fingerprint response) between stored
  (after.1,
    if after.2 ≠ 1 then
      .error (.idempotencyConflictError "idempotency lease is missing or no longer owned")
    else .ok ())

/-- `release`. -/
def releaseAgain (token : String) (between : List (Option Json → Option Json))
    (stored : Option Json) : Option Json × Bool :=
  let after := resend (releaseScript · token) between stored
  (after.1, after.2 == 1)

/-- `begin` returns `started` whenever the record then carries the token. -/
def BeginRight (token : String) (after : Option Json)
    (outcome : Except PyError IdempotencyResult) : Prop :=
  ∀ later, Foreign (Carries token) later → Carries token (later after) →
    outcome = .ok { status := .started, token := some token }

/-- An execution of `complete` stores the completed record. -/
def Completes (token fingerprint : String) (response : Json) (stored : Option Json) : Prop :=
  (completeCommand token fingerprint response stored).2 = 1

/-- The stored record is the completed one. -/
def Completed (fingerprint : String) (response : Json) (stored : Option Json) : Prop :=
  stored = some (completedRecord fingerprint response)

/-- `complete` does not raise whenever one of its executions wrote the completed record and that is
the record then stored. -/
def CompleteRight (token fingerprint : String) (response : Json)
    (between : List (Option Json → Option Json)) (stored : Option Json) : Prop :=
  let call := completeAgain token fingerprint response between stored
  (∃ e ∈ executions (completeCommand token fingerprint response) between stored,
      Completes token fingerprint response e) →
    ∀ later, Foreign (Completed fingerprint response) later →
      Completed fingerprint response (later call.1) → call.2 = .ok ()

/-- `release` returns `True` whenever one of its executions removed the record. -/
def ReleaseRight (token : String) (between : List (Option Json → Option Json))
    (stored : Option Json) : Prop :=
  (∃ e ∈ executions (releaseScript · token) between stored, Carries token e) →
    (releaseAgain token between stored).2 = true

/-! Commands that are sent once are the calls. -/

theorem beginAgain_once {processingTtlSeconds : Int} {fingerprint : String}
    (hvalid : ¬(processingTtlSeconds ≤ 0 ∨ fingerprint = "")) (token : String)
    (stored : Option Json) :
    beginAgain token fingerprint [] stored =
      beginCall stored fingerprint processingTtlSeconds token := by
  rw [beginCall, if_neg hvalid]
  rfl

theorem completeAgain_once {ttlSeconds : Int} {fingerprint : String}
    (hvalid : ¬(ttlSeconds ≤ 0 ∨ fingerprint = "")) (token : String) (response : Json)
    (stored : Option Json) :
    completeAgain token fingerprint response [] stored =
      completeCall stored token fingerprint response ttlSeconds := by
  rw [completeCall, if_neg hvalid]
  rfl

theorem releaseAgain_once (token : String) (stored : Option Json) :
    releaseAgain token [] stored = releaseCall stored token := rfl

/-! What a command makes of the record it meets. -/

theorem not_carries_none (token : String) : ¬Carries token none := by
  rintro ⟨record, hrecord, -⟩
  cases hrecord

theorem carries_some {token : String} {record : Json} :
    Carries token (some record) ↔ eqStr (record.field "token") token = true := by
  constructor
  · rintro ⟨record', hrecord, htoken⟩
    rw [Option.some.inj hrecord]
    exact htoken
  · intro htoken
    exact ⟨record, rfl, htoken⟩

/-- The reply to `begin` is the record its execution leaves. -/
theorem beginCommand_stored (token fingerprint : String) (stored : Option Json) :
    (beginCommand token fingerprint stored).1 = some (beginCommand token fingerprint stored).2 := by
  cases stored with
  | none => rfl
  | some existing => rfl

theorem readReply_own {existing : Json} {token fingerprint : String}
    (h : eqStr (existing.field "token") token = true) :
    readReply existing token fingerprint = .ok { status := .started, token := some token } := by
  rw [readReply, if_pos h]

/-- `begin` recognises its token, however often its command ran. -/
theorem begin_right (token fingerprint : String) (between : List (Option Json → Option Json))
    (stored : Option Json) :
    BeginRight token (beginAgain token fingerprint between stored).1
      (beginAgain token fingerprint between stored).2 := by
  intro later hforeign hcarries
  have hcarries := hforeign _ hcarries
  simp only [beginAgain, resend_eq] at hcarries ⊢
  rw [beginCommand_stored, carries_some] at hcarries
  exact readReply_own hcarries

/-- `complete` leaves a record it does not complete as it is. -/
theorem completeCommand_refused {token fingerprint : String} {response : Json}
    {stored : Option Json} (h : ¬Completes token fingerprint response stored) :
    (completeCommand token fingerprint response stored).1 = stored := by
  unfold Completes completeCommand completeScript at *
  cases stored with
  | none => rfl
  | some current =>
      simp only at h ⊢
      split
      · rfl
      · split
        · rfl
        · simp_all

/-- The completed record has no token, so `complete` does not know it again. -/
theorem not_completes_completed (token fingerprint : String) (response : Json) :
    ¬Completes token fingerprint response (some (completedRecord fingerprint response)) := by
  simp [Completes, completeCommand, completeScript]

theorem completeAgain_ok {token fingerprint : String} {response : Json}
    {between : List (Option Json → Option Json)} {stored : Option Json} :
    (completeAgain token fingerprint response between stored).2 = .ok () ↔
      Completes token fingerprint response
        (last (completeCommand token fingerprint response) between stored) := by
  simp only [completeAgain, resend_eq, Completes]
  split
  · rename_i hanswer
    exact ⟨nofun, fun h => absurd h hanswer⟩
  · rename_i hanswer
    exact ⟨fun _ => not_not.mp hanswer, fun _ => rfl⟩

/-- `complete` is right exactly when its last execution does not meet the completed record that an
earlier execution wrote. -/
theorem complete_right_iff (token fingerprint : String) (response : Json)
    (between : List (Option Json → Option Json)) (stored : Option Json) :
    CompleteRight token fingerprint response between stored ↔
      ¬((∃ e ∈ lost (completeCommand token fingerprint response) between stored,
          Completes token fingerprint response e) ∧
        Completed fingerprint response
          (last (completeCommand token fingerprint response) between stored)) := by
  rw [CompleteRight, completeAgain_ok, completeAgain, resend_eq]
  constructor
  · rintro hright ⟨⟨e, he, hcompletes⟩, hcompleted⟩
    have hrefused : ¬Completes token fingerprint response
        (last (completeCommand token fingerprint response) between stored) := by
      rw [Completed] at hcompleted
      rw [hcompleted]
      exact not_completes_completed token fingerprint response
    refine hrefused (hright ⟨e, mem_executions.mpr (.inl he), hcompletes⟩ id (fun _ h => h) ?_)
    simp only [completeCommand_refused hrefused, id]
    exact hcompleted
  · rintro hcond ⟨e, he, hcompletes⟩ later hforeign hstored
    refine by_contra fun hrefused => ?_
    have hstored := hforeign _ hstored
    simp only [completeCommand_refused hrefused] at hstored
    rcases mem_executions.mp he with hlost | rfl
    · exact hcond ⟨⟨e, hlost, hcompletes⟩, hstored⟩
    · exact hrefused hcompletes

/-- `_RELEASE_SCRIPT` answers 1 exactly when the record carries the token. -/
theorem releaseScript_found (token : String) (stored : Option Json) :
    (releaseScript stored token).2 = 1 ↔ Carries token stored := by
  cases stored with
  | none => exact ⟨nofun, fun h => absurd h (not_carries_none token)⟩
  | some current =>
      rw [carries_some, releaseScript]
      cases eqStr (current.field "token") token with
      | true => simp
      | false => simp

theorem releaseScript_gone (token : String) (stored : Option Json) :
    ¬Carries token (releaseScript stored token).1 := by
  cases stored with
  | none => exact not_carries_none token
  | some current =>
      rw [releaseScript]
      cases htoken : eqStr (current.field "token") token with
      | true => exact not_carries_none token
      | false => simp [carries_some, htoken]

/-- `release` is right exactly when no execution with a lost reply removed the record. -/
theorem release_right_iff {token : String} {between : List (Option Json → Option Json)}
    (hforeign : ∀ happened ∈ between, Foreign (Carries token) happened) (stored : Option Json) :
    ReleaseRight token between stored ↔
      ¬∃ e ∈ lost (releaseScript · token) between stored, Carries token e := by
  rw [← found_once_iff (releaseScript_gone token) hforeign stored, ReleaseRight, releaseAgain,
    resend_eq]
  simp only [beq_iff_eq, releaseScript_found]

end Idempotency

/-! ## Which calls are right -/

open Lock

/-- Which calls are right when their commands are sent again: `begin` always is, the others exactly
when their last execution does not meet what an earlier one left. -/
theorem coordination_resent (lock : RedisLock) (token fingerprint : String) (response : Json) :
    (∀ start rounds ks after outcome, lock.acquire start rounds ks = some (after, outcome) →
      (lock.AcquireRight after outcome ↔
        ∀ met, lock.lastAttempt start rounds ks = some met → ¬lock.Stored met)) ∧
    (∀ between, (∀ happened ∈ between, Foreign lock.Stored happened) → ∀ ks,
      (lock.ReleaseRight between ks ↔
        ¬∃ e ∈ lost lock.releaseCommand between ks, lock.Stored e)) ∧
    (∀ between stored,
      Idempotency.BeginRight token (Idempotency.beginAgain token fingerprint between stored).1
        (Idempotency.beginAgain token fingerprint between stored).2) ∧
    (∀ between stored,
      (Idempotency.CompleteRight token fingerprint response between stored ↔
        ¬((∃ e ∈ lost (Idempotency.completeCommand token fingerprint response) between stored,
            Idempotency.Completes token fingerprint response e) ∧
          Idempotency.Completed fingerprint response
            (last (Idempotency.completeCommand token fingerprint response) between stored)))) ∧
    ∀ between, (∀ happened ∈ between, Foreign (Idempotency.Carries token) happened) → ∀ stored,
      (Idempotency.ReleaseRight token between stored ↔
        ¬∃ e ∈ lost (Idempotency.releaseScript · token) between stored,
          Idempotency.Carries token e) :=
  ⟨fun _ _ _ _ _ h => RedisLock.acquire_right_iff h,
    fun _ hforeign ks => RedisLock.release_right_iff hforeign ks,
    Idempotency.begin_right token fingerprint,
    Idempotency.complete_right_iff token fingerprint response,
    fun _ hforeign stored => Idempotency.release_right_iff hforeign stored⟩

/-- The key with the token of the lock in it. -/
def held : Texts := Keyspace.empty.setPx "job" "a" 30000

/-- The first reply of every command is lost and the command runs again, with nothing in between:
`acquire` raises although the key stores its token, both releases return `False` after they removed
the key, and `complete` raises although its record is the one stored. -/
theorem resent_calls_wrong :
    (∃ after outcome,
      (sampleLock "a").acquire 0 [⟨id, [id], 0⟩] Keyspace.empty = some (after, outcome) ∧
        ¬(sampleLock "a").AcquireRight after outcome) ∧
    ¬(sampleLock "a").ReleaseRight [id] held ∧
    ¬Idempotency.CompleteRight "a" "f" .null [id] (some (Idempotency.inProgressRecord "a" "f")) ∧
    ¬Idempotency.ReleaseRight "a" [id] (some (Idempotency.inProgressRecord "a" "f")) := by
  have hheld : (sampleLock "a").Stored held := by
    unfold RedisLock.Stored
    decide
  refine ⟨⟨held, .error (.lockNotAcquiredError "could not acquire Redis lock job"), ?_, ?_⟩,
    ?_, ?_, ?_⟩
  · have hsent : resend (sampleLock "a").attempt [id] Keyspace.empty = (held, false) := rfl
    have hgivesUp : (sampleLock "a").afterAttempt false 0 0 =
        some (.error (.lockNotAcquiredError "could not acquire Redis lock job")) := by
      simp [RedisLock.afterAttempt, RedisLock.deadline, sampleLock]
    simp only [RedisLock.acquire, id, hsent, hgivesUp]
  · intro hright
    cases hright id (fun _ h => h) hheld
  · intro hright
    have hfound := hright ⟨held, List.mem_cons_self, hheld⟩
    exact absurd hfound (by decide)
  · intro hright
    have hdone := hright ⟨_, List.mem_cons_self, rfl⟩ id (fun _ h => h) rfl
    cases hdone
  · intro hright
    have hfound := hright ⟨_, List.mem_cons_self, Idempotency.carries_some.mpr rfl⟩
    exact absurd hfound (by decide)

/-- The first reply of every command is lost and the command runs again, and the calls are right:
the key `acquire` stored and the record `complete` wrote have expired before the second execution,
`begin` finds its own record, and both releases meet a stranger's token twice. -/
theorem coordination_resent_job :
    (sampleLock "a").AcquireRight held (.ok true) ∧
    (sampleLock "a").ReleaseRight [id] (Keyspace.empty.setPx "job" "b" 30000) ∧
    Idempotency.BeginRight "a" (some (Idempotency.inProgressRecord "a" "f"))
      (.ok { status := .started, token := some "a" }) ∧
    Idempotency.CompleteRight "a" "f" .null [fun _ => none]
      (some (Idempotency.inProgressRecord "a" "f")) ∧
    Idempotency.ReleaseRight "a" [id] (some (Idempotency.inProgressRecord "b" "f")) := by
  obtain ⟨hacquire, hrelease, hbegin, hcomplete, hrelease'⟩ :=
    coordination_resent (sampleLock "a") "a" "f" .null
  let expired : Texts → Texts := fun _ => Keyspace.empty
  have hlast : (sampleLock "a").lastAttempt 0 [⟨id, [expired], 0⟩] Keyspace.empty =
      some Keyspace.empty := rfl
  have hstranger : ¬(sampleLock "a").Stored (Keyspace.empty.setPx "job" "b" 30000) := by
    unfold RedisLock.Stored
    decide
  refine ⟨(hacquire 0 [⟨id, [expired], 0⟩] Keyspace.empty held (.ok true) rfl).mpr ?_,
    (hrelease [id] ?_ _).mpr ?_, hbegin [id] none, (hcomplete [fun _ => none] _).mpr ?_,
    (hrelease' [id] ?_ _).mpr ?_⟩
  · intro met hmet
    rw [hlast] at hmet
    rw [← Option.some.inj hmet]
    exact nofun
  · intro happened hmem
    obtain rfl := List.mem_singleton.mp hmem
    exact fun _ hstored => hstored
  · rintro ⟨e, hmem, hstored⟩
    obtain rfl := List.mem_singleton.mp hmem
    exact hstranger hstored
  · rintro ⟨-, hcompleted⟩
    cases hcompleted
  · intro happened hmem
    obtain rfl := List.mem_singleton.mp hmem
    exact fun _ hcarries => hcarries
  · rintro ⟨e, hmem, hcarries⟩
    obtain rfl := List.mem_singleton.mp hmem
    exact absurd (Idempotency.carries_some.mp hcarries) (by decide)

end ProdkitStorage.Redis
